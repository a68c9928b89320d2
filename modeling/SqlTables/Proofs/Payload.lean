import SqlTables.Proofs.Input
import SqlTables.Proofs.Text
import SqlTables.Proofs.Unicode.LetterCase

/-!
# The payload of an upload

The text of an upload carries its base64 text among blanks, and after the head of a `data:`
URL if there is one. What is decoded is the payload, which depends on neither: it is what
stands behind the head, or the whole text, without any blanks (`payload_of_isUrl`,
`payload_cases`). Decoding never makes more bytes of it than its size check counts
(`length_le_of_decode`), so a payload that keeps the limit ends in a script that does.
-/

namespace SqlTables

/-- The first text is the second with blanks put in anywhere. -/
inductive Spaced : List Char → List Char → Prop
  | nil : Spaced [] []
  | blank {b : Char} {xs ys : List Char} (hb : Unicode.isBlank b) (rest : Spaced xs ys) :
      Spaced (b :: xs) ys
  | char {xs ys : List Char} (c : Char) (rest : Spaced xs ys) : Spaced (c :: xs) (c :: ys)

theorem Spaced.squeeze_eq {xs ys : List Char} (h : Spaced xs ys) :
    Text.squeeze xs = Text.squeeze ys := by
  induction h with
  | nil => rfl
  | blank hb _ ih => rw [← ih, Text.squeeze, List.filter_cons_of_neg (by simp [hb]), Text.squeeze]
  | char c _ ih =>
      rw [Text.squeeze, Text.squeeze, List.filter_cons, List.filter_cons, ← Text.squeeze, ih,
        Text.squeeze]

/-- What is put in is blank, all else was there. -/
theorem Spaced.isBlank_or_mem {xs ys : List Char} (h : Spaced xs ys) {c : Char} (hc : c ∈ xs) :
    Unicode.isBlank c ∨ c ∈ ys := by
  induction h with
  | nil => cases hc
  | blank hb _ ih =>
      rcases List.mem_cons.mp hc with rfl | hc
      · exact Or.inl hb
      · exact ih hc
  | char d _ ih =>
      rcases List.mem_cons.mp hc with rfl | hc
      · exact Or.inr List.mem_cons_self
      · exact (ih hc).imp_right (List.mem_cons_of_mem d)

namespace Input

variable {chars rest : List Char} {content : String} {limit : Int}

/-! ## Words in any case -/

theorem spells_cons_iff {word : List Char} {lower : Char} :
    spells (String.ofList (lower :: word)) chars ↔
      ∃ c cs, chars = c :: cs ∧ isLetterOf lower c ∧ spells (String.ofList word) cs := by
  cases chars with
  | nil => simp [spells]
  | cons c cs => simp [spells, and_left_comm]

theorem spells_nil_iff : spells (String.ofList []) chars ↔ chars = [] := by
  cases chars <;> simp [spells]

/-- A word in upper and lower case letters is spelled. -/
theorem spells_of_map_toLower {word : String} (h : chars.map Char.toLower = word.toList) :
    spells word chars := by
  have hall (cs : List Char) : spells (String.ofList (cs.map Char.toLower)) cs := by
    induction cs with
    | nil => rfl
    | cons c cs ih => exact spells_cons_iff.mpr ⟨c, cs, rfl, by simp [isLetterOf], ih⟩
  have hword := hall chars
  rwa [h, String.ofList_toList] at hword

theorem length_of_spells {word : String} (h : spells word chars) :
    chars.length = word.toList.length := by
  simp only [spells, Bool.and_eq_true, beq_iff_eq] at h
  exact h.1.symm

/-- A word is spelled in its own letters only. -/
theorem not_mem_of_spells {word : String} {c : Char} (h : spells word chars)
    (hc : word.toList.any (isLetterOf · c) = false) : c ∉ chars := by
  have hall (letters : List Char) (hc : letters.any (isLetterOf · c) = false)
      (chars : List Char) (h : spells (String.ofList letters) chars) : c ∉ chars := by
    induction letters generalizing chars with
    | nil => simp [spells_nil_iff.mp h]
    | cons lower letters ih =>
        obtain ⟨d, ds, rfl, hd, hds⟩ := spells_cons_iff.mp h
        rw [List.any_cons, Bool.or_eq_false_iff] at hc
        rw [List.mem_cons, not_or]
        refine ⟨?_, ih hc.2 ds hds⟩
        rintro rfl
        rw [hc.1] at hd
        cases hd
  exact hall word.toList hc chars (by rwa [String.ofList_toList])

/-! ## The head of a URL -/

/-- The characters are a `data:` URL for base64 text, after blanks, with `rest` behind its head. -/
def IsUrl (chars rest : List Char) : Prop :=
  ∃ before scheme media encoding, (∀ c ∈ before, Unicode.isBlank c) ∧ spells "data:" scheme ∧
    ',' ∉ media ∧ spells ";base64" encoding ∧
      chars = before ++ (scheme ++ (media ++ (encoding ++ ',' :: rest)))

theorem withoutUrlHead_append {scheme media encoding : List Char} (hscheme : spells "data:" scheme)
    (hmedia : ',' ∉ media) (hencoding : spells ";base64" encoding) (rest : List Char) :
    withoutUrlHead (scheme ++ (media ++ (encoding ++ ',' :: rest))) = rest := by
  have hlength : scheme.length = 5 := length_of_spells hscheme
  have hlength' : encoding.length = 7 := length_of_spells hencoding
  have hhead : (scheme ++ (media ++ (encoding ++ ',' :: rest))).takeWhile (· ≠ ',') =
      scheme ++ (media ++ encoding) := by
    rw [← List.append_assoc, ← List.append_assoc, List.takeWhile_append_of_pos]
    · simp
    · intro c hc
      have hc' : c ≠ ',' := by
        rintro rfl
        simp only [List.mem_append] at hc
        rcases hc with (hc | hc) | hc
        · exact not_mem_of_spells hscheme rfl hc
        · exact hmedia hc
        · exact not_mem_of_spells hencoding rfl hc
      exact decide_eq_true hc'
  have hdrop : (scheme ++ (media ++ encoding)).drop
      ((scheme ++ (media ++ encoding)).length - 7) = encoding := by
    rw [← List.append_assoc, List.drop_left' (by simp [hlength']; omega)]
  have hrest : (scheme ++ (media ++ (encoding ++ ',' :: rest))).drop
      ((scheme ++ (media ++ encoding)).length + 1) = rest := by
    rw [show scheme ++ (media ++ (encoding ++ ',' :: rest)) =
      (scheme ++ (media ++ encoding) ++ [',']) ++ rest by simp]
    exact List.drop_left' (by simp; omega)
  simp only [withoutUrlHead, hhead, hdrop, hrest, List.take_left' hlength, hscheme, hencoding]
  exact if_pos (by simp [hlength, hlength']; omega)

/-- A head that is dropped is that of a URL. -/
theorem isUrl_or_withoutUrlHead_eq (chars : List Char) :
    (∃ rest, IsUrl chars rest) ∨ withoutUrlHead chars = chars := by
  simp only [withoutUrlHead]
  split
  next h =>
      simp only [Bool.and_eq_true, decide_eq_true_eq] at h
      obtain ⟨⟨⟨hlt, hlong⟩, hscheme⟩, hencoding⟩ := h
      have hsplit := List.takeWhile_append_dropWhile (p := (· ≠ ',')) (l := chars)
      set head := chars.takeWhile (· ≠ ',')
      obtain ⟨rest, hrest⟩ : ∃ rest, chars.dropWhile (· ≠ ',') = ',' :: rest := by
        cases hafter : chars.dropWhile (· ≠ ',') with
        | nil =>
            rw [hafter, List.append_nil] at hsplit
            exact absurd hlt (by rw [hsplit]; exact Nat.lt_irrefl _)
        | cons c rest =>
            have hc := List.head?_dropWhile_not (fun c : Char => decide (c ≠ ',')) chars
            simp only [ne_eq, hafter] at hc
            exact ⟨rest, by simpa using hc⟩
      have hmem : ',' ∉ head := fun hc => absurd (List.mem_takeWhile_imp hc) (by decide)
      have hmiddle : head = head.take 5 ++
          ((head.drop 5).take (head.length - 12) ++ head.drop (head.length - 7)) := by
        conv_lhs => rw [← List.take_append_drop 5 head,
          ← List.take_append_drop (head.length - 12) (head.drop 5), List.drop_drop]
        rw [show 5 + (head.length - 12) = head.length - 7 by omega]
      refine Or.inl ⟨rest, [], head.take 5, (head.drop 5).take (head.length - 12),
        head.drop (head.length - 7), by simp, hscheme, fun hc => ?_, hencoding, ?_⟩
      · exact hmem (List.mem_of_mem_drop (List.mem_of_mem_take hc))
      · rw [← hsplit, hrest]
        conv_lhs => rw [hmiddle]
        simp
  next => exact Or.inr rfl

/-! ## The payload -/

theorem payload_of_isUrl (h : IsUrl content.toList rest) : payload content = Text.squeeze rest := by
  obtain ⟨before, scheme, media, encoding, hbefore, hscheme, hmedia, hencoding, hcontent⟩ := h
  have hcomma : Unicode.isBlank ',' = false := rfl
  have hfirst : ∃ c cs, scheme = c :: cs ∧ Unicode.isBlank c = false := by
    have hword : spells (String.ofList ('d' :: "ata:".toList)) scheme := hscheme
    obtain ⟨c, cs, hscheme, hc, -⟩ := spells_cons_iff.mp hword
    have hlower : c.toLower = 'd' := by simpa [isLetterOf] using hc
    refine ⟨c, cs, hscheme, ?_⟩
    rw [← Unicode.isBlank_toLower, hlower]
    rfl
  obtain ⟨c, cs, rfl, hc⟩ := hfirst
  have htrim : (Text.trim content).toList =
      (c :: cs) ++ (media ++ (encoding ++ ',' :: Text.trimRight rest)) := by
    rw [Text.trim, String.toList_ofList, hcontent, List.cons_append,
      Text.trimLeft_append hbefore hc]
    rw [show c :: (cs ++ (media ++ (encoding ++ ',' :: rest))) =
      (c :: (cs ++ (media ++ encoding))) ++ ',' :: rest by simp, Text.trimRight_append hcomma]
    simp
  rw [payload, htrim, withoutUrlHead_append hscheme hmedia hencoding, Text.squeeze_trimRight]

theorem squeeze_trim (content : String) :
    Text.squeeze (Text.trim content).toList = Text.squeeze content.toList := by
  rw [Text.trim, String.toList_ofList, Text.squeeze_trimRight, Text.squeeze_trimLeft]

/-- Without the head of a URL, the payload is all that is not blank. -/
theorem payload_cases (content : String) :
    (∃ rest, IsUrl content.toList rest) ∨ payload content = Text.squeeze content.toList := by
  rcases isUrl_or_withoutUrlHead_eq (Text.trim content).toList with ⟨rest, hurl⟩ | heq
  · obtain ⟨blanks, hblanks, hleft⟩ := Text.exists_trimLeft content.toList
    obtain ⟨after, -, hright⟩ := Text.exists_trimRight (Text.trimLeft content.toList)
    obtain ⟨before, scheme, media, encoding, hbefore, hscheme, hmedia, hencoding, htrim⟩ := hurl
    rw [Text.trim, String.toList_ofList] at htrim
    refine Or.inl ⟨rest ++ after, blanks ++ before, scheme, media, encoding,
      List.forall_mem_append.mpr ⟨hblanks, hbefore⟩, hscheme, hmedia, hencoding, ?_⟩
    rw [hleft, hright, htrim]
    simp
  · exact Or.inr (by rw [payload, heq, squeeze_trim])

/-! ## Line ends -/

theorem IsUrl.unifyLineEnds (h : IsUrl chars rest) :
    IsUrl (Text.unifyLineEnds chars) (Text.unifyLineEnds rest) := by
  obtain ⟨before, scheme, media, encoding, hbefore, hscheme, hmedia, hencoding, rfl⟩ := h
  have hne : scheme ≠ [] := by rintro rfl; cases hscheme
  have hne' : encoding ≠ [] := by rintro rfl; cases hencoding
  refine ⟨Text.unifyLineEnds before, scheme, Text.unifyLineEnds media, encoding,
    Text.isBlank_unifyLineEnds_iff.mpr hbefore, hscheme, ?_, hencoding, ?_⟩
  · rwa [Text.mem_unifyLineEnds_iff (by decide) (by decide)]
  · rw [Text.unifyLineEnds_middle hne (not_mem_of_spells hscheme rfl)
        (not_mem_of_spells hscheme rfl),
      Text.unifyLineEnds_middle hne' (not_mem_of_spells hencoding rfl)
        (not_mem_of_spells hencoding rfl),
      Text.unifyLineEnds_cons (by decide)]

theorem IsUrl.exists_of_unifyLineEnds (h : IsUrl (Text.unifyLineEnds chars) rest) :
    ∃ more, IsUrl chars more ∧ Text.unifyLineEnds more = rest := by
  obtain ⟨before, scheme, media, encoding, hbefore, hscheme, hmedia, hencoding, hchars⟩ := h
  obtain ⟨before', url, rfl, rfl, hurl⟩ := Text.exists_of_unifyLineEnds_append hchars
  obtain ⟨scheme', tail, rfl, hscheme', htail⟩ := Text.exists_of_unifyLineEnds_append hurl
  obtain ⟨media', last, rfl, rfl, hlast⟩ := Text.exists_of_unifyLineEnds_append htail
  obtain ⟨encoding', behind, rfl, hencoding', hbehind⟩ :=
    Text.exists_of_unifyLineEnds_append hlast
  rw [← List.singleton_append] at hbehind
  obtain ⟨comma, more, rfl, hcomma, hmore⟩ := Text.exists_of_unifyLineEnds_append hbehind
  rw [Text.eq_of_unifyLineEnds_eq hscheme' (not_mem_of_spells hscheme rfl),
    Text.eq_of_unifyLineEnds_eq hencoding' (not_mem_of_spells hencoding rfl),
    Text.eq_of_unifyLineEnds_eq hcomma (by decide)]
  refine ⟨more, ⟨before', scheme, media', encoding, Text.isBlank_unifyLineEnds_iff.mp hbefore,
    hscheme, ?_, hencoding, rfl⟩, hmore⟩
  rwa [Text.mem_unifyLineEnds_iff (by decide) (by decide)] at hmedia

/-- The kind of the line ends is nothing to the payload. -/
theorem payload_unifyLineEnds (content : String) :
    payload (String.ofList (Text.unifyLineEnds content.toList)) = payload content := by
  have hchars : (String.ofList (Text.unifyLineEnds content.toList)).toList =
      Text.unifyLineEnds content.toList := String.toList_ofList
  rcases payload_cases (String.ofList (Text.unifyLineEnds content.toList)) with
    ⟨rest, hurl⟩ | hplain
  · obtain ⟨more, hmore, rfl⟩ := IsUrl.exists_of_unifyLineEnds (hchars ▸ hurl)
    rw [payload_of_isUrl hurl, payload_of_isUrl hmore, Text.squeeze_unifyLineEnds]
  · rcases payload_cases content with ⟨rest, hurl⟩ | hplain'
    · rw [payload_of_isUrl (hchars.symm ▸ hurl.unifyLineEnds), payload_of_isUrl hurl,
        Text.squeeze_unifyLineEnds]
    · rw [hplain, hplain', hchars, Text.squeeze_unifyLineEnds]

end Input

/-! ## The size of what is decoded -/

namespace Base64

/-- Three bytes take four characters of data. -/
theorem length_le_of_decodeFrom {text : List Char} {p : Progress} {bytes : List UInt8}
    (h : decodeFrom p text = .ok bytes) :
    4 * bytes.length ≤ 3 * text.length + 3 * p.count % 4 := by
  induction text generalizing p bytes with
  | nil =>
      rw [decodeFrom] at h
      split_ifs at h
      cases h
      exact Nat.zero_le _
  | cons c rest ih =>
      have hemit {next : Progress} {byte : UInt8} (hcount : next.count = p.count + 1)
          (hplace : p.place ≠ 0) (h : (decodeFrom next rest).map (byte :: ·) = .ok bytes) :
          4 * bytes.length ≤ 3 * (c :: rest).length + 3 * p.count % 4 := by
        cases hrest : decodeFrom next rest with
        | error cause => rw [hrest] at h; cases h
        | ok more =>
            rw [hrest] at h
            cases h
            have hle := ih hrest
            rw [hcount] at hle
            have hplaces : p.count % 4 = 1 ∨ p.count % 4 = 2 ∨ p.count % 4 = 3 := by
              simp only [Progress.place] at hplace
              omega
            simp only [List.length_cons]
            rcases hplaces with hplace | hplace | hplace <;> omega
      rw [decodeFrom] at h
      dsimp only at h
      split at h
      next =>
          split_ifs at h
          · cases h
            exact Nat.zero_le _
          · exact Nat.le_trans (ih h) (by simp only [List.length_cons]; omega)
      next =>
          split at h
          next => cases h
          next =>
              split_ifs at h
              split at h
              next hplace =>
                  have hle := ih h
                  simp only [Progress.place] at hplace
                  simp only [List.length_cons] at hle ⊢
                  omega
              next hplace => exact hemit rfl (by rw [hplace]; decide) h
              next hplace => exact hemit rfl (by rw [hplace]; decide) h
              next hplace _ _ => exact hemit rfl hplace h

theorem length_le_of_decode {text : List Char} {bytes : List UInt8} (h : decode text = .ok bytes) :
    bytes.length ≤ text.length * 3 / 4 := by
  rw [decode] at h
  split at h
  · have hle := length_le_of_decodeFrom h
    simp only [Nat.mul_zero, Nat.zero_mod] at hle
    omega
  · cases h

end Base64

end SqlTables
