import OpenApi.Text.Alphanumeric
import OpenApi.Text.LetterCase

set_option autoImplicit false

namespace OpenApi.Text

def isBlank (c : Char) : Bool :=
  let n := c.toNat
  decide (9 ≤ n ∧ n ≤ 13) || n == 0x20 || n == 0x85 || n == 0xA0 || n == 0x1680
    || decide (0x2000 ≤ n ∧ n ≤ 0x200A) || n == 0x2028 || n == 0x2029 || n == 0x202F
    || n == 0x205F || n == 0x3000

def trimBy (drop : Char → Bool) (cs : List Char) : List Char :=
  ((cs.dropWhile drop).reverse.dropWhile drop).reverse

def trim (cs : List Char) : List Char := trimBy isBlank cs

def asciiLower (cs : List Char) : List Char := cs.map Char.toLower

def sameIgnoringCase (a b : String) : Bool := asciiLower a.toList == asciiLower b.toList

inductive LetterRun where
  | boundary
  | lower
  | upper
deriving DecidableEq, Repr

def LetterRun.after (run : LetterRun) (c : Char) : LetterRun :=
  if isLower c then .lower else if isUpper c then .upper else run

-- A word ends before an upper case letter after a lower case one, and before the last of several
-- upper case letters if a lower case one follows; numerals belong to the word around them. `word`
-- is the word so far in reverse order.
def splitPiece (run : LetterRun) (word : List Char) : List Char → List (List Char)
  | [] => if word.isEmpty then [] else [word.reverse]
  | [c] => [(c :: word).reverse]
  | c :: next :: rest =>
    let run' := run.after c
    if run' = .lower ∧ isUpper next then
      (c :: word).reverse :: splitPiece .boundary [] (next :: rest)
    else if run = .upper ∧ isUpper c ∧ isLower next then
      word.reverse :: splitPiece .boundary [c] (next :: rest)
    else splitPiece run' (c :: word) (next :: rest)

def pieces (piece : List Char) : List Char → List (List Char)
  | [] => [piece.reverse]
  | c :: rest =>
    if isAlphanumeric c then pieces (c :: piece) rest else piece.reverse :: pieces [] rest

def words (s : List Char) : List (List Char) :=
  (pieces [] s).flatMap (splitPiece .boundary [])

-- The lower case of a word; a sigma at its end takes its final form.
def lowerWord : List Char → List Char
  | [] => []
  | [c] => if c = 'Σ' then ['ς'] else lowerCase c
  | c :: rest => lowerCase c ++ lowerWord rest

def capitalizedWord : List Char → List Char
  | [] => []
  | c :: rest => upperCase c ++ lowerWord rest

def upperCamel (s : List Char) : List Char := (words s).flatMap capitalizedWord

def lowerCamel (s : List Char) : List Char :=
  match words s with
  | [] => []
  | first :: rest => lowerWord first ++ rest.flatMap capitalizedWord

end OpenApi.Text
