import Turnstile.Command.Grammar
import Turnstile.Text.Split

/-! Reading a command line, word by word. An option with a value stays open until something else
is met: only then is its value looked at. So a fault further to the right can win over an open
option's fault, and the faults of a command win over those of the level above it. -/

namespace Turnstile.CommandLine

/-- What a word looks like. -/
inductive Word where
  /-- After `--` no word is an option. -/
  | divider
  | long (name : String) (value : Option String)
  | letters (first : Char)
  | plain

def Word.ofText (s : String) : Word :=
  match s.toList with
  | ['-', '-'] => .divider
  | '-' :: '-' :: cs =>
    let (name, value) := Text.splitAt '=' cs
    .long (String.ofList name) (value.map String.ofList)
  | '-' :: c :: _ => .letters c
  | _ => .plain

/-- An option whose value has not been looked at. -/
structure OpenOption where
  name : String
  taker : Taker
  value : Option String

/-- How far a level has been read. -/
structure Progress where
  draft : Draft := {}
  /-- The options given so far. -/
  given : List String := []
  pending : Option OpenOption := none
  plainOnly : Bool := false

namespace Progress

/-- The next word is the value of the open option, if it looks like one. -/
def wantsValue (p : Progress) : Bool := p.pending.any (·.value.isNone)

/-- An option can be given once; the change is not looked at before that. -/
def give (p : Progress) (name : String) (change : Except LineFault (Draft → Draft)) :
    Except LineFault Progress :=
  if p.given.contains name then .error .optionRepeated
  else do return { p with draft := (← change) p.draft, given := name :: p.given, pending := none }

/-- Looks at the value of the open option. -/
def settle (p : Progress) : Except LineFault Progress :=
  match p.pending with
  | none => .ok p
  | some ⟨_, _, none⟩ => .error .valueMissing
  | some ⟨name, taker, some value⟩ => p.give name (taker value)

/-- Meets an option without a value. -/
def meet (p : Progress) (name : String) : Effect → Except LineFault Progress
  | .help => do
    let _ ← p.settle
    .error .helpAsked
  | .version => do
    let _ ← p.settle
    .error .versionAsked
  | .mark change => do (← p.settle).give name (.ok change)
  | .take taker => do return { ← p.settle with pending := some ⟨name, taker, none⟩ }

/-- Meets an option with a value attached to it. -/
def meetWith (p : Progress) (name value : String) : Effect → Except LineFault Progress
  | .take taker => do (← p.settle).give name (taker value)
  | _ => .error .valueUnasked

/-- A word that is no option and no option's value. Only `hash-password` has a place for one. -/
def place (p : Progress) (level : Level) (word : String) : Except LineFault Progress :=
  if level = .hashPassword && p.draft.password.isNone then do
    let p ← p.settle
    return { p with draft.password := some word }
  else if level.children.isEmpty || (p.plainOnly && level.hasCommand word) then
    .error .unknownOption
  else .error .unknownCommand

def next (p : Progress) (level : Level) (word : String) : Except LineFault Progress :=
  if p.plainOnly then p.place level word
  else match Word.ofText word with
    | .divider => .ok { p with plainOnly := true }
    | .long name attached =>
      match level.options.lookup name, attached with
      | some effect, none => p.meet name effect
      | some effect, some value => p.meetWith name value effect
      | none, _ => .error .unknownOption
    | .letters c =>
      match level.ofLetter? c with
      | some effect => p.meet c.toString effect
      | none => .error .unknownOption
    | .plain =>
      match p.pending with
      | some ⟨name, taker, none⟩ => .ok { p with pending := some ⟨name, taker, some word⟩ }
      | _ => p.place level word

end Progress

/-- The words after a help word name the command to explain. -/
def explain (level : Level) : List String → LineFault
  | [] => .helpAsked
  | word :: rest =>
    match level.children.lookup word with
    | some child => explain child rest
    | none => if level.hasCommand word && rest.isEmpty then .helpAsked else .unknownCommand

/-- A file named at a lower level wins over one named above it. -/
def readAt (level : Level) (p : Progress) : List String → Except LineFault CommandLine
  | [] => do
    let p ← p.settle
    level.finish (!p.given.isEmpty) p.draft
  | word :: rest =>
    if p.plainOnly || p.wantsValue || !level.hasCommand word then do
      readAt level (← p.next level word) rest
    else match level.children.lookup word with
      | some child => do
        let line ← readAt child {} rest
        let p ← p.settle
        return { line with config := line.config <|> p.draft.config }
      | none => .error (explain level rest)

/-- Reads the words after the name of the program. -/
def read (words : List String) : Except LineFault CommandLine := readAt .top {} words

end Turnstile.CommandLine
