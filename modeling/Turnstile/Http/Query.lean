import Turnstile.Text.Percent
import Turnstile.Text.Split

/-! Query strings: pairs between ampersands, empty ones left out, each a name and a value around
the first equals sign. -/

namespace Turnstile.Http.Query

/-- The pairs as they are written. -/
def rawPairs (query : String) : List (List Char) :=
  (Text.splitOn '&' query.toList).filter (!·.isEmpty)

def decodeText (cs : List Char) : String := Percent.formText (Utf8.encodeList cs)

/-- Name and value of a pair, decoded; no equals sign means an empty value. -/
def decodePair (pair : List Char) : String × String :=
  let (name, value) := Text.splitAt '=' pair
  (decodeText name, decodeText (value.getD []))

def pairs (query : String) : List (String × String) := (rawPairs query).map decodePair

/-- The value of a name; of several the last counts. -/
def value? (query : String) (name : String) : Option String := (pairs query).reverse.lookup name

end Turnstile.Http.Query
