/-! Media types of bodies: a type and a subtype, then parameters after a semicolon or a blank. The
last plus sign of the subtype starts its suffix. -/

namespace Turnstile.Http.MediaType

/-- The characters of a token. -/
def isToken (c : Char) : Bool :=
  c.isAlphanum || ['!', '#', '$', '%', '&', '\'', '*', '+', '-', '.', '^', '_', '|', '~',
    Char.ofNat 0x60].contains c

def isQuotable (c : Char) : Bool := 31 < c.toNat && c.toNat < 127

/-! ## Parameters -/

/-- What a parameter list is waiting for; the flags say that something has been read there. -/
inductive Awaited where
  | name (started : Bool)
  | value (started : Bool)
  | quoted (started : Bool)
  /-- After a closing quote. -/
  | separator

def Awaited.step : Awaited → Char → Option Awaited
  | .name started, c =>
    if c = ' ' && !started then some (.name false)
    else if isToken c then some (.name true)
    else if c = '=' && started then some (.value false)
    else none
  | .value started, c =>
    if c = '"' && !started then some (.quoted false)
    else if isToken c then some (.value true)
    else if c = ';' && started then some (.name false)
    else none
  | .quoted started, c =>
    if c = '"' && started then some .separator
    else if isQuotable c then some (.quoted true)
    else none
  | .separator, c =>
    if c = ';' then some (.name false) else if c = ' ' then some .separator else none

def Awaited.mayEnd : Awaited → Bool
  | .name started => !started
  | .value _ | .separator => true
  | .quoted _ => false

def areParameters (cs : List Char) : Bool :=
  match cs.foldlM Awaited.step (.name false) with
  | some awaited => awaited.mayEnd
  | none => false

/-! ## JSON -/

/-- The subtype ends at a semicolon or a blank, neither of which may come first. -/
def subtypeEnds (c : Char) : Bool := c == ';' || c == ' '

/-- The subtype without its suffix, and the suffix. A plus sign at the start is no separator. -/
def splitSuffix (subtype : List Char) : List Char × Option (List Char) :=
  let suffix := (subtype.reverse.takeWhile (· != '+')).reverse
  let before := subtype.take (subtype.length - suffix.length - 1)
  if before.isEmpty then (subtype, none) else (before, some suffix)

/-- The value names JSON: subtype or suffix `json` of an application, in any case. -/
def isJson (value : String) : Bool :=
  let cs := value.toList.map Char.toLower
  let top := cs.takeWhile (· != '/')
  match cs.drop top.length with
  | [] => false
  | _ :: rest =>
    let subtype := rest.takeWhile (!subtypeEnds ·)
    let parameters := rest.drop (subtype.length + 1)
    let (name, suffix) := splitSuffix subtype
    top == "application".toList && subtype.all isToken && areParameters parameters &&
      (name == "json".toList || suffix == some "json".toList)

end Turnstile.Http.MediaType
