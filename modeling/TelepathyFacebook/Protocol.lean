import Mathlib.Computability.RegularExpressions

/-!
# Login ids

The filter of the `account` parameter in `tp/protocol.c`: two anchored patterns,
compiled with GLib's default options.  A pattern is a regular expression over
characters; a bracket expression is the sum of its characters.

With the default options `$` matches at the end of the subject and before a final
newline, and GLib takes any line break for a newline; `gRegexMatch` says so.
-/

namespace TelepathyFacebook

open RegularExpression

/-- The characters of a range such as `a-z`. -/
def charRange (first last : Char) : List Char :=
  (List.range (last.toNat - first.toNat + 1)).map fun i ↦ Char.ofNat (first.toNat + i)

/-- A bracket expression. -/
def charClass (cs : List Char) : RegularExpression Char := cs.foldr (fun c r ↦ char c + r) 0

/-- `r+`. -/
def oneOrMore (r : RegularExpression Char) : RegularExpression Char := r * star r

/-- `r?`. -/
def optional (r : RegularExpression Char) : RegularExpression Char := 1 + r

/-- `r{n,}`. -/
def atLeast (n : Nat) (r : RegularExpression Char) : RegularExpression Char := r ^ n * star r

/-- `r{m,n}`. -/
def between (m n : Nat) (r : RegularExpression Char) : RegularExpression Char :=
  r ^ m * optional r ^ (n - m)

/-- What GLib takes for a newline unless a compile option says otherwise. -/
def newlines : List (List Char) :=
  [['\n'], ['\r'], ['\r', '\n'], ['\u000b'], ['\u000c'], ['\u0085'], ['\u2028'], ['\u2029']]

/-- `g_regex_match` for the pattern `^r$`. -/
def gRegexMatch (r : RegularExpression Char) (input : String) : Bool :=
  r.rmatch input.toList ||
    newlines.any fun newline ↦
      newline.isSuffixOf input.toList &&
        r.rmatch (input.toList.take (input.toList.length - newline.length))

/-- `[a-zA-Z]`. -/
def letters : List Char := charRange 'a' 'z' ++ charRange 'A' 'Z'

/-- `[0-9]`. -/
def digits : List Char := charRange '0' '9'

/-- `^[a-zA-Z0-9._%+-]+@[a-zA-Z0-9.-]+\.[a-zA-Z]{2,}$`, between its anchors. -/
def regexEmail : RegularExpression Char :=
  oneOrMore (charClass (letters ++ digits ++ ['.', '_', '%', '+', '-'])) * char '@' *
    oneOrMore (charClass (letters ++ digits ++ ['.', '-'])) * char '.' *
    atLeast 2 (charClass letters)

/-- `^\+?[0-9]{7,15}$`, between its anchors. -/
def regexPhone : RegularExpression Char :=
  optional (char '+') * between 7 15 (charClass digits)

/-- `TP_ERROR_INVALID_HANDLE`, with its message. -/
structure InvalidHandle where
  message : String
deriving DecidableEq, Repr

/-- `filter_fb_id`: success is TRUE. -/
def filterFbId (input : String) : Except InvalidHandle Unit :=
  if gRegexMatch regexEmail input then .ok ()
  else if gRegexMatch regexPhone input then .ok ()
  else .error ⟨"Invalid Fb login: must be an email address or phone number (digits only). Got: '" ++
    input ++ "'"⟩

end TelepathyFacebook
