import SqlTables.Diagnostic
import SqlTables.Encoding.Base64
import SqlTables.Encoding.Utf8
import SqlTables.Text

/-!
# Input

A script arrives as pasted text, on a stream, as the bytes of a file, or as a file in base64 text,
which may be written as a `data:` URL. Each way ends in the script or in an `InputProblem`, and each
obeys the same limit on the number of bytes of the script's UTF-8 form.
-/

namespace SqlTables

inductive InputProblem
  | missing
  | tooLarge (size limit : Int)
  | notBase64 (cause : Base64.Error)
  | notUtf8 (cause : Utf8.Error)
deriving DecidableEq

namespace InputProblem

/-- The message for the one who sent the script. -/
def message : InputProblem → String
  | missing => "No input provided"
  | tooLarge _ limit => "Input exceeds maximum size of " ++ toString limit ++ " bytes"
  | notBase64 _ => "Failed to decode Base64 content"
  | notUtf8 cause => "Failed to convert: " ++ cause.message

def diagnostic : InputProblem → Diagnostic
  | missing => { level := .error, code := .noInput, message := "no input provided" }
  | tooLarge size limit =>
    { level := .error, code := .inputTooLarge,
      message := "input is " ++ toString size ++ " bytes, limit is " ++ toString limit :
        Diagnostic }
    |>.note "raise extract.max_input_bytes to allow larger scripts"
  | notBase64 cause =>
    { level := .error, code := .notBase64,
      message := "file content is not base64: " ++ cause.message }
  | notUtf8 cause =>
    { level := .error, code := .notUtf8, message := "file is not valid UTF-8: " ++ cause.message }

end InputProblem

/-- Whether a script was pasted or comes from a file. -/
inductive InputOrigin
  | text
  | file
deriving DecidableEq

namespace InputOrigin

def name : InputOrigin → String
  | text => "text"
  | file => "file"

end InputOrigin

namespace Input

def checkSize (size limit : Int) : Except InputProblem Unit :=
  if limit < size then .error (.tooLarge size limit) else .ok ()

/-- Drops a byte-order mark at the start. -/
def withoutMark (chars : List Char) : List Char :=
  match chars with
  | '\ufeff' :: rest => rest
  | _ => chars

/-- The script that the bytes of a file hold. -/
def ofBytes (limit : Int) (bytes : List UInt8) : Except InputProblem String := do
  checkSize bytes.length limit
  match Utf8.decode bytes with
  | .ok chars => .ok (String.ofList (withoutMark chars))
  | .error cause => .error (.notUtf8 cause)

/-- Whether two characters are the same letter, `lower` being a lower-case one. -/
def isLetterOf (lower c : Char) : Bool := c.toLower = lower || (lower = 's' && c = 'ſ')

/-- Whether the characters spell a word, in any case. -/
def spells (word : String) (chars : List Char) : Bool :=
  word.toList.length == chars.length
    && (word.toList.zip chars).all fun (lower, c) => isLetterOf lower c

/-- Drops the head of a `data:` URL, which ends with the first comma. -/
def withoutUrlHead (chars : List Char) : List Char :=
  let head := chars.takeWhile (· ≠ ',')
  let isHead :=
    head.length < chars.length && 12 ≤ head.length && spells "data:" (head.take 5)
      && spells ";base64" (head.drop (head.length - 7))
  if isHead then chars.drop (head.length + 1) else chars

/-- The script that a file in base64 text holds. The size is checked before the text is decoded, at
three bytes for four characters, and again after. -/
def ofFileContent (limit : Int) (content : String) : Except InputProblem String := do
  let payload := Text.squeeze (withoutUrlHead (Text.trim content).toList)
  checkSize (payload.length * 3 / 4 : Nat) limit
  match Base64.decode payload with
  | .ok bytes => ofBytes limit bytes
  | .error cause => .error (.notBase64 cause)

/-- The script and its origin. Pasted text wins over a file, and an empty one counts as absent. -/
def resolve (text file : Option String) (limit : Int) :
    Except InputProblem (String × InputOrigin) :=
  match text.filter (· ≠ "") with
  | some script => do
    checkSize (Utf8.encode script.toList).length limit
    pure (script, .text)
  | none =>
    match file.filter (· ≠ "") with
    | some content => do
      let script ← ofFileContent limit content
      pure (script, .file)
    | none => .error .missing

/-- The text of an ASCII file, with line feeds for line ends of all kinds; a byte that is not ASCII
becomes the replacement character. -/
def asciiText (bytes : List UInt8) : String :=
  String.ofList (Text.unifyLineEnds
    (bytes.map fun b => if b < 128 then Char.ofNat b.toNat else '\ufffd'))

/-- The script that a file in base64 text holds, whose size is checked before it is read. -/
def ofBase64File (limit : Int) (bytes : List UInt8) : Except InputProblem String := do
  checkSize (bytes.length * 3 / 4 : Nat) limit
  ofFileContent limit (asciiText bytes)

/-- The script that a stream holds. It is read up to one character past the limit, which is enough
for the size check to fail. -/
def ofStream (limit : Int) (text : String) : Except InputProblem (String × InputOrigin) :=
  let start := (Text.unifyLineEnds text.toList).take (limit + 1).toNat
  resolve (some (String.ofList start)) none limit

end Input

end SqlTables
