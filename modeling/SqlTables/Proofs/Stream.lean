import SqlTables.CommandLine.Extract
import SqlTables.Proofs.Input

/-!
# A stream that is read in part

A piped script is read up to one character past the limit, and the limit is on bytes. Nothing is
lost by that (`read_verdict`): a script of more characters than the limit has more bytes than it
too, and so has its start of one character more, whatever the widths of the characters are.
-/

namespace SqlTables

namespace Input

variable {limit : Int} {script : String}

/-- The same script, or two refusals with the same code. -/
inductive SameAnswer :
    Except InputProblem (String × InputOrigin) → Except InputProblem (String × InputOrigin) → Prop
  | script (found : String × InputOrigin) : SameAnswer (.ok found) (.ok found)
  | problem {p q : InputProblem} (hcode : p.diagnostic.code = q.diagnostic.code) :
      SameAnswer (.error p) (.error q)

theorem SameAnswer.refl (r : Except InputProblem (String × InputOrigin)) : SameAnswer r r := by
  cases r with
  | ok found => exact .script found
  | error p => exact .problem rfl

/-- More characters than the limit has bytes are too many, whatever they are. -/
theorem resolve_long (h : limit < script.length) (hne : script ≠ "") :
    resolve (some script) none limit = .error (.tooLarge (byteCount script) limit) := by
  have hcount := length_le_byteCount script
  rw [resolve_text limit hne, if_pos (by omega)]

/-- The part of a script that is read under a limit. -/
def start (limit : Int) (script : String) : String :=
  String.ofList (script.toList.take (limit + 1).toNat)

theorem start_of_le (h : script.length ≤ limit) : start limit script = script := by
  rw [start, List.take_of_length_le, String.ofList_toList]
  rw [String.length_toList]
  omega

theorem length_start (hlimit : 0 ≤ limit) (h : limit < script.length) :
    ((start limit script).length : Int) = limit + 1 := by
  rw [start, String.length_ofList, List.length_take, String.length_toList]
  omega

theorem ne_empty_of_lt_length (hlimit : 0 ≤ limit) (h : limit < script.length) : script ≠ "" := by
  rintro rfl
  rw [String.length_empty] at h
  omega

/-- The part of a script that is read has the answer of the whole. -/
theorem sameAnswer_start (hlimit : 0 ≤ limit) (script : String) :
    SameAnswer (resolve (some (start limit script)) none limit)
      (resolve (some script) none limit) := by
  by_cases h : script.length ≤ limit
  · rw [start_of_le h]
    exact .refl _
  · have hlong : limit < script.length := Int.not_le.mp h
    have hstart : limit < (start limit script).length := by
      rw [length_start hlimit hlong]
      omega
    rw [resolve_long hlong (ne_empty_of_lt_length hlimit hlong),
      resolve_long hstart (ne_empty_of_lt_length hlimit hstart)]
    exact .problem rfl

end Input

/-- A request for the one script that is piped in. -/
structure PipedRequest where
  request : ExtractRequest
  host : Host
  piped : String
  fromStdin : request.fromStdin = true
  isAlone : request.inputNames.length ≤ 1
  stdin : host.stdin = some piped

namespace PipedRequest

/-- The whole text that standard input gives, with line feeds for line ends of all kinds. -/
def text (c : PipedRequest) : String := String.ofList (Text.unifyLineEnds c.piped.toList)

def read (c : PipedRequest) (limit : Int) : Except ScriptProblem (String × InputOrigin) :=
  c.request.read c.host limit

theorem read_eq (c : PipedRequest) (limit : Int) :
    c.read limit =
      if ExtractRequest.longestRead ≤ limit then .error (.failure .readLength)
      else (Input.resolve (some (Input.start limit c.text)) none limit).mapError .input := by
  have hseveral : ¬ 1 < c.request.inputNames.length := Nat.not_lt.mpr c.isAlone
  rw [read, ExtractRequest.read, if_neg hseveral, if_pos c.fromStdin, c.stdin,
    ExtractRequest.streamed, Input.ofStream, Input.start, text, String.toList_ofList]

/-- What is piped in is accepted or refused as its whole text is, unless the limit asks for more
characters than can be read at once. -/
theorem read_verdict (c : PipedRequest) {limit : Int} (hlimit : 0 ≤ limit) :
    (limit < ExtractRequest.longestRead →
      ∃ answer, c.read limit = answer.mapError .input ∧
        Input.SameAnswer answer (Input.resolve (some c.text) none limit)) ∧
    (ExtractRequest.longestRead ≤ limit → c.read limit = .error (.failure .readLength)) := by
  constructor
  · intro hread
    refine ⟨Input.resolve (some (Input.start limit c.text)) none limit, ?_, ?_⟩
    · rw [read_eq, if_neg (Int.not_le.mpr hread)]
    · exact Input.sameAnswer_start hlimit c.text
  · intro hlong
    rw [read_eq, if_pos hlong]

/-- A script of seven bytes, whose first four characters have five. -/
def accented : PipedRequest where
  request := { fromStdin := true }
  host :=
    { now := ⟨⟨2024, 6, 15⟩, 0⟩, configPath := "config.toml", config := none, logFiles := [],
      target := fun _ => .nothing, stdin := some "é\r\nabc;" }
  piped := "é\r\nabc;"
  fromStdin := rfl
  isAlone := by decide
  stdin := rfl

/-- Under a limit of three bytes the sizes that are reported differ, the codes do not. -/
theorem read_verdict_accented :
    (0 : Int) ≤ 3 ∧ (3 : Int) < ExtractRequest.longestRead ∧
      accented.read 3 = .error (.input (.tooLarge 5 3)) ∧
      Input.resolve (some accented.text) none 3 = .error (.tooLarge 7 3) ∧
      ∃ answer, accented.read 3 = answer.mapError .input ∧
        Input.SameAnswer answer (Input.resolve (some accented.text) none 3) := by
  have hpositive : (0 : Int) ≤ 3 := by decide
  have hread : (3 : Int) < ExtractRequest.longestRead := by decide
  exact ⟨hpositive, hread, by decide +kernel, by decide +kernel,
    (read_verdict accented hpositive).1 hread⟩

end PipedRequest

end SqlTables
