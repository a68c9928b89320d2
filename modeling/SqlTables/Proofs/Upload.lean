import SqlTables.CommandLine.Extract
import SqlTables.Proofs.Payload

/-!
# Uploads

An upload is a script in base64 text, as a file or a `data:` URL and broken into lines in any
way. It reads back as the script (`Input.Upload.ofFileContent_content`).

The same text may stand in a file that the command line names. There the file is measured
before it is read, with its blanks and its head, so it can be refused where the text itself
is accepted; in all other cases the two give the same (`Input.AsciiFile.sameVerdict_iff`).
-/

namespace SqlTables

namespace Input

/-- The head of a `data:` URL for base64 text. -/
structure UrlHead where
  scheme : List Char
  media : List Char
  encoding : List Char
  isScheme : scheme.map Char.toLower = "data:".toList
  isMedia : ',' ∉ media
  isEncoding : encoding.map Char.toLower = ";base64".toList

def UrlHead.chars (h : UrlHead) : List Char := h.scheme ++ (h.media ++ (h.encoding ++ [',']))

/-- The characters of a file that holds the script, with a byte-order mark or without. -/
def fileChars (isMarked : Bool) (script : String) : List Char :=
  (if isMarked then ['\ufeff'] else []) ++ script.toList

/-- The base64 text of that file. -/
def fileText (isMarked : Bool) (script : String) : List Char :=
  Base64.encode (Utf8.encode (fileChars isMarked script))

/-- A script as it is uploaded. A byte-order mark may precede the script, and the head of a URL
its base64 text, with blanks around and inside. -/
structure Upload where
  script : String
  isMarked : Bool
  notMark : isMarked = false → script.toList.head? ≠ some '\ufeff'
  before : List Char
  head : Option UrlHead
  body : List Char
  after : List Char
  isBlank_before : ∀ c ∈ before, Unicode.isBlank c
  isBlank_after : ∀ c ∈ after, Unicode.isBlank c
  isSpaced : Spaced body (fileText isMarked script)

namespace Upload

def encoded (u : Upload) : List Char := fileText u.isMarked u.script

def content (u : Upload) : String :=
  String.ofList (u.before ++ ((u.head.map UrlHead.chars).getD [] ++ (u.body ++ u.after)))

variable (u : Upload)

theorem withoutMark_fileChars : withoutMark (fileChars u.isMarked u.script) = u.script.toList := by
  cases hmarked : u.isMarked with
  | true => rfl
  | false =>
      rw [fileChars, if_neg Bool.false_ne_true, List.nil_append]
      exact withoutMark_of_head? (u.notMark hmarked)

theorem not_isBlank_encoded {c : Char} (hc : c ∈ u.encoded) : Unicode.isBlank c = false :=
  isBlank_of_isTextChar (Base64.isTextChar_of_mem_encode hc)

theorem squeeze_body (u : Upload) : Text.squeeze (u.body ++ u.after) = u.encoded := by
  rw [Text.squeeze_append, Text.squeeze_of_isBlank u.isBlank_after, List.append_nil,
    u.isSpaced.squeeze_eq]
  exact squeeze_of_not_isBlank fun c hc => u.not_isBlank_encoded hc

/-- There is no comma but that of a head. -/
theorem not_mem_of_head (hhead : u.head = none) : ',' ∉ u.content.toList := by
  have hblank : Unicode.isBlank ',' = false := rfl
  have hbody : ',' ∉ u.body := by
    intro hc
    rcases u.isSpaced.isBlank_or_mem hc with hc | hc
    · exact absurd hc (by rw [hblank]; decide)
    · exact (Base64.isTextChar_bounds (Base64.isTextChar_of_mem_encode hc)).2.2 rfl
  rw [content, hhead, String.toList_ofList]
  simp only [Option.map_none, Option.getD_none, List.nil_append, List.mem_append, not_or]
  refine ⟨fun hc => ?_, hbody, fun hc => ?_⟩
  · exact absurd (u.isBlank_before _ hc) (by rw [hblank]; decide)
  · exact absurd (u.isBlank_after _ hc) (by rw [hblank]; decide)

theorem payload_content : payload u.content = u.encoded := by
  cases hhead : u.head with
  | none =>
      rcases payload_cases u.content with ⟨rest, _, _, _, _, -, -, -, -, hcontent⟩ | hpayload
      · exact absurd (by simp [hcontent]) (u.not_mem_of_head hhead)
      · rw [hpayload, content, hhead, String.toList_ofList, Text.squeeze_append,
          Text.squeeze_of_isBlank u.isBlank_before]
        exact u.squeeze_body
  | some head =>
      have hurl : IsUrl u.content.toList (u.body ++ u.after) := by
        refine ⟨u.before, head.scheme, head.media, head.encoding, u.isBlank_before,
          spells_of_map_toLower head.isScheme, head.isMedia,
          spells_of_map_toLower head.isEncoding, ?_⟩
        rw [content, hhead, String.toList_ofList]
        simp [UrlHead.chars]
      rw [payload_of_isUrl hurl, u.squeeze_body]

/-- An upload reads back as its script wherever its base64 text keeps the limit. -/
theorem ofFileContent_content (limit : Int) (h : (u.encoded.length * 3 / 4 : Nat) ≤ limit) :
    ofFileContent limit u.content = .ok u.script := by
  have hdecode : Base64.decode u.encoded = .ok (Utf8.encode (fileChars u.isMarked u.script)) :=
    Base64.decode_encode _
  have hsize : ((Utf8.encode (fileChars u.isMarked u.script)).length : Int) ≤ limit :=
    Int.le_trans (Int.ofNat_le.mpr (Base64.length_le_of_decode hdecode)) h
  rw [ofFileContent_eq, payload_content, if_neg (Int.not_lt.mpr h), hdecode]
  change ofBytes limit (Utf8.encode (fileChars u.isMarked u.script)) = .ok u.script
  rw [ofBytes_encode hsize, withoutMark_fileChars, String.ofList_toList]

/-- A script of one letter, marked, in a URL of two lines. -/
def letter : Upload where
  script := "é"
  isMarked := true
  notMark := nofun
  before := ['\n']
  head := some
    { scheme := "Data:".toList, media := "text/plain; name=a b".toList,
      encoding := ";BASE64".toList, isScheme := by decide, isMedia := by decide,
      isEncoding := by decide }
  body := "77u/\r\n w6k=".toList
  after := ['\t']
  isBlank_before := List.forall_mem_singleton.mpr rfl
  isBlank_after := List.forall_mem_singleton.mpr rfl
  isSpaced := .char _ (.char _ (.char _ (.char _ (.blank (by decide) (.blank (by decide)
    (.blank (by decide) (.char _ (.char _ (.char _ (.char _ .nil))))))))))

theorem ofFileContent_letter :
    letter.content = "\nData:text/plain; name=a b;BASE64,77u/\r\n w6k=\t" ∧
      (letter.encoded.length * 3 / 4 : Nat) ≤ (6 : Int) ∧
      ofFileContent 6 letter.content = .ok "é" :=
  ⟨by decide +kernel, by decide +kernel, letter.ofFileContent_content 6 (by decide +kernel)⟩

end Upload

/-! ## The file of an upload -/

/-- A file of ASCII text. -/
structure AsciiFile where
  text : String
  isAscii : ∀ c ∈ text.toList, c.toNat < 128

/-- The same script, or problems with the same code. -/
inductive SameVerdict :
    Except ScriptProblem (String × InputOrigin) → Except InputProblem String → Prop
  | script (script : String) : SameVerdict (.ok (script, .file)) (.ok script)
  | problem {p q : InputProblem} (hcode : p.diagnostic.code = q.diagnostic.code) :
      SameVerdict (.error (.input p)) (.error q)

theorem code_of_ofBytes {limit : Int} {bytes : List UInt8} {p : InputProblem}
    (hsize : (bytes.length : Int) ≤ limit) (h : ofBytes limit bytes = .error p) :
    p.diagnostic.code = .notUtf8 := by
  rw [ofBytes, checkSize_of_le hsize] at h
  cases hutf8 : Utf8.decode bytes with
  | ok chars =>
      rw [hutf8] at h
      cases h
  | error cause =>
      rw [hutf8] at h
      cases h
      rfl

/-- An upload is too large for its payload only, never for what it decodes to. -/
theorem code_of_ofFileContent {limit : Int} {content : String} {p : InputProblem}
    (h : ofFileContent limit content = .error p) :
    p.diagnostic.code = .inputTooLarge ↔ limit < ((payload content).length * 3 / 4 : Nat) := by
  rw [ofFileContent_eq] at h
  split at h
  next hlt =>
      cases h
      exact iff_of_true rfl hlt
  next hle =>
      refine iff_of_false ?_ hle
      split at h
      next bytes hdecode =>
          have hsize : (bytes.length : Int) ≤ limit :=
            Int.le_trans (Int.ofNat_le.mpr (Base64.length_le_of_decode hdecode))
              (Int.not_lt.mp hle)
          rw [code_of_ofBytes hsize h]
          decide
      next cause _ =>
          cases h
          nofun

namespace AsciiFile

def bytes (f : AsciiFile) : List UInt8 := f.text.toList.map fun c => UInt8.ofNat c.toNat

variable (f : AsciiFile) (limit : Int)

theorem asciiText_bytes : asciiText f.bytes = String.ofList (Text.unifyLineEnds f.text.toList) := by
  have hchar (c : Char) (hc : c ∈ f.text.toList) :
      (if UInt8.ofNat c.toNat < 128 then Char.ofNat (UInt8.ofNat c.toNat).toNat else '\ufffd') =
        c := by
    have hlt := f.isAscii c hc
    have hbyte : (UInt8.ofNat c.toNat).toNat = c.toNat := Utf8.toNat_ofNat (by omega)
    rw [if_pos (UInt8.lt_iff_toNat_lt.mpr (by rw [hbyte]; exact hlt)), hbyte, Char.ofNat_toNat]
  rw [asciiText, bytes, List.map_map]
  exact congrArg (fun chars => String.ofList (Text.unifyLineEnds chars))
    ((List.map_congr_left hchar).trans (List.map_id _))

/-- A file is measured as it is, and then read as its text is. -/
theorem read_bytes (host : Host) :
    ExtractRequest.read host limit { base64 := some f.bytes } =
      if limit < (f.bytes.length * 3 / 4 : Nat) then
        .error (.input (.tooLarge (f.bytes.length * 3 / 4 : Nat) limit))
      else ((ofFileContent limit f.text).map (·, .file)).mapError .input := by
  have hpayload := payload_unifyLineEnds f.text
  have hcontent : ofFileContent limit (asciiText f.bytes) = ofFileContent limit f.text := by
    rw [asciiText_bytes, ofFileContent_eq, ofFileContent_eq, hpayload]
  have hread : ExtractRequest.read host limit { base64 := some f.bytes } =
      ((ofBase64File limit f.bytes).map (·, .file)).mapError .input := rfl
  by_cases h : limit < (f.bytes.length * 3 / 4 : Nat)
  · rw [hread, ofBase64File, checkSize_of_lt h, if_pos h]
    rfl
  · rw [hread, ofBase64File, checkSize_of_le (Int.not_lt.mp h), if_neg h, ← hcontent]
    rfl

/-- The file and its text have the same verdict unless the file is measured above the limit and
the payload is not. -/
theorem sameVerdict_iff (host : Host) :
    SameVerdict (ExtractRequest.read host limit { base64 := some f.bytes })
        (ofFileContent limit f.text) ↔
      (f.bytes.length * 3 / 4 : Nat) ≤ limit ∨ limit < ((payload f.text).length * 3 / 4 : Nat) := by
  rw [read_bytes]
  by_cases h : limit < (f.bytes.length * 3 / 4 : Nat)
  · rw [if_pos h]
    have hle : ¬ (f.bytes.length * 3 / 4 : Nat) ≤ limit := Int.not_le.mpr h
    cases hcontent : ofFileContent limit f.text with
    | ok script =>
        refine iff_of_false nofun (not_or.mpr ⟨hle, fun hlt => ?_⟩)
        rw [ofFileContent_eq, if_pos hlt] at hcontent
        cases hcontent
    | error p =>
        rw [or_iff_right hle, ← code_of_ofFileContent hcontent]
        refine ⟨fun hsame => ?_, fun hcode => .problem hcode.symm⟩
        cases hsame with
        | problem hcode => exact hcode.symm
  · rw [if_neg h]
    refine iff_of_true ?_ (Or.inl (Int.not_lt.mp h))
    cases ofFileContent limit f.text with
    | ok script => exact .script script
    | error p => exact .problem rfl

/-- A script of fifteen bytes, with an empty line behind its base64 text. -/
def spaced : AsciiFile where
  text := "U0VMRUNUICogRlJPTSBh\n\n"
  isAscii := by simp

/-- What the command line finds besides the file. -/
def host : Host where
  now := ⟨⟨2024, 6, 15⟩, 0⟩
  configPath := "config.toml"
  config := none
  logFiles := []
  target := fun _ => .nothing
  stdin := none

/-- Under a limit of fifteen bytes its text is the script, but its file is too large. -/
theorem not_sameVerdict_spaced :
    ofFileContent 15 spaced.text = .ok "SELECT * FROM a" ∧
      ExtractRequest.read host 15 { base64 := some spaced.bytes } =
        .error (.input (.tooLarge 16 15)) ∧
      ¬ SameVerdict (ExtractRequest.read host 15 { base64 := some spaced.bytes })
        (ofFileContent 15 spaced.text) := by
  have hcontent : ofFileContent 15 spaced.text = .ok "SELECT * FROM a" := by decide +kernel
  have hread : ExtractRequest.read host 15 { base64 := some spaced.bytes } =
      .error (.input (.tooLarge 16 15)) := by decide +kernel
  refine ⟨hcontent, hread, fun hsame => ?_⟩
  rw [hcontent, hread] at hsame
  cases hsame

end AsciiFile

end Input

end SqlTables
