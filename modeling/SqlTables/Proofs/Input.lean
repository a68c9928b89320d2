import Mathlib.Data.List.TakeWhile
import SqlTables.Input
import SqlTables.Proofs.Encoding.Base64
import SqlTables.Proofs.Encoding.Utf8

/-!
# Pasted text and uploaded files

A script should be accepted or refused for its size alone, whether it is pasted or
uploaded in base64 text. Both ways end in the same script where they accept it, but an
upload is measured by its text first, as if the last group of three bytes were full.
So the two agree just where that count does not pass the limit before the script does
(`Input.keepsLimit_iff`).
-/

namespace SqlTables

namespace Input

/-- The number of bytes of a script. -/
def byteCount (script : String) : Nat := (Utf8.encode script.toList).length

/-- The file that holds a script, in base64 text. -/
def upload (script : String) : String := String.ofList (Base64.encode (Utf8.encode script.toList))

/-- The script is refused, with the code of one that is too large. -/
def IsTooLarge (r : Except InputProblem (String × InputOrigin)) : Prop :=
  ∃ problem, r = .error problem ∧ problem.diagnostic.code = .inputTooLarge

/-- Both pasted and uploaded, the script is accepted as it is when its bytes keep the limit, and
is too large when they do not. -/
def KeepsLimit (limit : Int) (script : String) : Prop :=
  if byteCount script ≤ limit then
    resolve (some script) none limit = .ok (script, .text) ∧
      resolve none (some (upload script)) limit = .ok (script, .file)
  else
    IsTooLarge (resolve (some script) none limit) ∧
      IsTooLarge (resolve none (some (upload script)) limit)

variable {limit : Int} {script : String}

theorem checkSize_of_le {size : Int} (h : size ≤ limit) : checkSize size limit = .ok () :=
  if_neg (Int.not_lt.mpr h)

theorem checkSize_of_lt {size : Int} (h : limit < size) :
    checkSize size limit = .error (.tooLarge size limit) :=
  if_pos h

theorem isTooLarge_error (size limit : Int) : IsTooLarge (.error (.tooLarge size limit)) :=
  ⟨_, rfl, rfl⟩

/-! ## The text of an upload -/

theorem isBlank_of_isTextChar {c : Char} (h : Base64.isTextChar c) :
    Unicode.isBlank c = false := by
  obtain ⟨hlt, hgt, -⟩ := Base64.isTextChar_bounds h
  have hoff (n : Nat) (hgt : 32 < n) (hlt : n < 128) :
      Unicode.Interval.covers Unicode.blanks n = false := by
    simp only [Unicode.blanks, Unicode.Interval.covers_cons]
    rw [if_neg (by omega), if_neg (by omega), if_neg (by omega), if_neg (by omega),
      if_pos (by omega)]
  exact hoff c.toNat hgt hlt

theorem trim_of_not_isBlank {chars : List Char} (h : ∀ c ∈ chars, Unicode.isBlank c = false) :
    Text.trim (String.ofList chars) = String.ofList chars := by
  have hdrop {cs : List Char} (h : ∀ c ∈ cs, Unicode.isBlank c = false) :
      cs.dropWhile Unicode.isBlank = cs := by
    cases cs with
    | nil => rfl
    | cons c cs => exact List.dropWhile_cons_of_neg (by rw [h c List.mem_cons_self]; decide)
  rw [Text.trim, String.toList_ofList, Text.trimLeft, Text.trimRight, hdrop h,
    hdrop fun c hc => h c (List.mem_reverse.mp hc), List.reverse_reverse]

theorem squeeze_of_not_isBlank {chars : List Char} (h : ∀ c ∈ chars, Unicode.isBlank c = false) :
    Text.squeeze chars = chars :=
  List.filter_eq_self.mpr fun c hc => by rw [h c hc, Bool.not_false]

/-- Without a comma there is no head of a URL. -/
theorem withoutUrlHead_of_not_comma {chars : List Char} (h : ∀ c ∈ chars, c ≠ ',') :
    withoutUrlHead chars = chars := by
  have htake : chars.takeWhile (· ≠ ',') = chars :=
    List.takeWhile_eq_self_iff.mpr fun c hc => decide_eq_true (h c hc)
  simp only [withoutUrlHead, htake, Nat.lt_irrefl, decide_false, Bool.false_and,
    Bool.false_eq_true, if_false]

/-! ## The payload -/

/-- What is decoded of the text of an upload. -/
def payload (content : String) : List Char :=
  Text.squeeze (withoutUrlHead (Text.trim content).toList)

/-- An upload is measured by its payload and then decoded. -/
theorem ofFileContent_eq (limit : Int) (content : String) :
    ofFileContent limit content =
      if limit < ((payload content).length * 3 / 4 : Nat) then
        .error (.tooLarge ((payload content).length * 3 / 4 : Nat) limit)
      else
        match Base64.decode (payload content) with
        | .ok bytes => ofBytes limit bytes
        | .error cause => .error (.notBase64 cause) := by
  by_cases h : limit < ((payload content).length * 3 / 4 : Nat)
  · rw [ofFileContent, ← payload, checkSize_of_lt h, if_pos h]
    rfl
  · rw [ofFileContent, ← payload, checkSize_of_le (Int.not_lt.mp h), if_neg h]
    cases Base64.decode (payload content) with
    | ok bytes => rfl
    | error cause => rfl

theorem payload_upload (script : String) :
    payload (upload script) = Base64.encode (Utf8.encode script.toList) := by
  have hchars (c : Char) (hc : c ∈ Base64.encode (Utf8.encode script.toList)) :=
    Base64.isTextChar_of_mem_encode hc
  have hblank := fun c hc => isBlank_of_isTextChar (hchars c hc)
  rw [payload, upload, trim_of_not_isBlank hblank, String.toList_ofList,
    withoutUrlHead_of_not_comma fun c hc => (Base64.isTextChar_bounds (hchars c hc)).2.2,
    squeeze_of_not_isBlank hblank]

/-! ## Both ways of input -/

theorem withoutMark_of_head? {chars : List Char} (h : chars.head? ≠ some '\ufeff') :
    withoutMark chars = chars := by
  unfold withoutMark
  split
  · exact absurd rfl h
  · rfl

theorem ofBytes_encode {chars : List Char} (hsize : ((Utf8.encode chars).length : Int) ≤ limit) :
    ofBytes limit (Utf8.encode chars) = .ok (String.ofList (withoutMark chars)) := by
  rw [ofBytes, checkSize_of_le hsize, Utf8.decode_encode]
  rfl

/-- An upload is measured in full groups of three bytes. -/
theorem ofFileContent_upload (limit : Int) (script : String) :
    ofFileContent limit (upload script) =
      if limit < (3 * ((byteCount script + 2) / 3) : Nat) then
        .error (.tooLarge (3 * ((byteCount script + 2) / 3) : Nat) limit)
      else ofBytes limit (Utf8.encode script.toList) := by
  have hcount : (Base64.encode (Utf8.encode script.toList)).length * 3 / 4 =
      3 * ((byteCount script + 2) / 3) := by
    rw [Base64.length_encode, byteCount]
    omega
  rw [ofFileContent_eq, payload_upload, hcount, Base64.decode_encode]

theorem resolve_text (limit : Int) (h : script ≠ "") :
    resolve (some script) none limit =
      if limit < byteCount script then .error (.tooLarge (byteCount script) limit)
      else .ok (script, .text) := by
  have hsome : (some script).filter (· ≠ "") = some script := by simp [h]
  simp only [resolve, hsome]
  rw [← byteCount]
  by_cases hsize : limit < byteCount script
  · rw [checkSize_of_lt hsize, if_pos hsize]
    rfl
  · rw [checkSize_of_le (Int.not_lt.mp hsize), if_neg hsize]
    rfl

/-- A script has at least as many bytes as characters. -/
theorem length_le_byteCount (script : String) : script.length ≤ byteCount script := by
  rw [← String.length_toList]
  exact Utf8.length_le_length_encode script.toList

theorem byteCount_pos (h : script ≠ "") : 0 < byteCount script := by
  have hlength : 0 < script.length :=
    Nat.pos_of_ne_zero fun hzero => h (String.length_eq_zero_iff.mp hzero)
  exact Nat.lt_of_lt_of_le hlength (length_le_byteCount script)

theorem resolve_file (limit : Int) (h : script ≠ "") :
    resolve none (some (upload script)) limit =
      (ofFileContent limit (upload script)).map fun script => (script, .file) := by
  have hpos := byteCount_pos h
  have hupload : upload script ≠ "" := by
    intro hempty
    have hlength := congrArg (fun s : String => s.toList.length) hempty
    simp only [upload, String.toList_ofList, Base64.length_encode] at hlength
    rw [byteCount] at hpos
    change _ = 0 at hlength
    omega
  have hsome : (some (upload script)).filter (· ≠ "") = some (upload script) := by simp [hupload]
  simp only [resolve, Option.filter_none, hsome]
  cases ofFileContent limit (upload script) with
  | ok script => rfl
  | error problem => rfl

/-- A script keeps the limit both ways unless the limit lies between its bytes and its full
groups of three. -/
theorem keepsLimit_iff (limit : Int) (h : script ≠ "")
    (hmark : script.toList.head? ≠ some '\ufeff') :
    KeepsLimit limit script ↔
      limit < byteCount script ∨ (3 * ((byteCount script + 2) / 3) : Nat) ≤ limit := by
  have hgroups : (byteCount script : Int) ≤ (3 * ((byteCount script + 2) / 3) : Nat) := by omega
  rw [KeepsLimit, resolve_text limit h, resolve_file limit h, ofFileContent_upload]
  by_cases hsize : byteCount script ≤ limit
  · rw [if_pos hsize, if_neg (Int.not_lt.mpr hsize)]
    by_cases hfull : (3 * ((byteCount script + 2) / 3) : Nat) ≤ limit
    · rw [if_neg (Int.not_lt.mpr hfull), ofBytes_encode hsize, withoutMark_of_head? hmark,
        String.ofList_toList]
      exact iff_of_true ⟨rfl, rfl⟩ (Or.inr hfull)
    · rw [if_pos (Int.not_le.mp hfull)]
      refine iff_of_false (fun hok => ?_) (by omega)
      cases hok.2
  · have hlt : limit < byteCount script := Int.not_le.mp hsize
    rw [if_neg hsize, if_pos hlt, if_pos (Int.lt_of_lt_of_le hlt hgroups)]
    exact iff_of_true ⟨isTooLarge_error _ _, isTooLarge_error _ _⟩ (Or.inl hlt)

/-- Three bytes are a full group, which a limit of three accepts. -/
theorem keepsLimit_three :
    "é;" ≠ "" ∧ "é;".toList.head? ≠ some '\ufeff' ∧ KeepsLimit 3 "é;" :=
  ⟨by decide, by decide,
    (keepsLimit_iff 3 (by decide) (by decide)).mpr (Or.inr (by decide +kernel))⟩

/-- A limit of one byte accepts one that is pasted and refuses it in an upload. -/
theorem not_keepsLimit_one :
    "a" ≠ "" ∧ "a".toList.head? ≠ some '\ufeff' ∧ upload "a" = "YQ==" ∧
      byteCount "a" = 1 ∧ ¬ KeepsLimit 1 "a" := by
  have hupload : resolve none (some (upload "a")) 1 = .error (.tooLarge 3 1) := by
    decide +kernel
  refine ⟨by decide, by decide, by decide +kernel, by decide +kernel, fun hkeeps => ?_⟩
  rw [KeepsLimit, if_pos (by decide +kernel), hupload] at hkeeps
  cases hkeeps.2

end Input

end SqlTables
