import Mathlib.Data.List.DropRight
import PolledAta.Identify.Field
import PolledAta.Proofs.Readable

/-!
# What a text field shows

A field holds no zero byte and ends in no blank. What it shows is cut once more, at the first byte that starts no
character: a blank before such a byte is shown, and a field that begins with one is not empty although it shows nothing.
-/

namespace PolledAta.Identify

variable {bytes : List UInt8}

/-! ## Blanks at the end -/

theorem mem_of_mem_trimBlanks {byte : UInt8} (h : byte ∈ trimBlanks bytes) : byte ∈ bytes :=
  (List.rdropWhile_prefix _ bytes).subset h

theorem getLast?_trimBlanks (bytes : List UInt8) : (trimBlanks bytes).getLast? ≠ some blank := by
  intro h
  have hne : trimBlanks bytes ≠ [] := by
    rintro he
    simp [he] at h
  rw [List.getLast?_eq_some_getLast hne, Option.some_inj] at h
  exact List.rdropWhile_last_not (· == blank) bytes hne (beq_iff_eq.mpr h)

/-- A byte without a partner leaves a zero. -/
theorem mem_swapPairs {byte : UInt8} (h : byte ∈ swapPairs bytes) : byte ∈ bytes ∨ byte = 0 := by
  fun_induction swapPairs bytes with
  | case1 first second rest ih =>
      rcases List.mem_cons.mp h with rfl | h
      · simp
      · rcases List.mem_cons.mp h with rfl | h
        · simp
        · exact (ih h).imp_left fun h => by simp [h]
  | case2 byte => exact .inr (List.mem_singleton.mp h)
  | case3 => cases h

namespace Field

/-! ## Decoded fields -/

/-- No zero byte, and no blank at the end. -/
structure Clean (field : Field) : Prop where
  zeroFree : 0 ∉ field.bytes
  trimmed : field.bytes.getLast? ≠ some blank

theorem clean_ofRaw (raw : List UInt8) : (ofRaw raw).Clean where
  zeroFree h := by
    simpa using List.mem_takeWhile_imp (mem_of_mem_trimBlanks h)
  trimmed := getLast?_trimBlanks _

theorem mem_of_mem_ofRaw {raw : List UInt8} {byte : UInt8} (h : byte ∈ (ofRaw raw).bytes) : byte ∈ raw := by
  have hne : byte ≠ 0 := by
    rintro rfl
    exact (clean_ofRaw raw).zeroFree h
  have hswapped : byte ∈ swapPairs raw := (List.takeWhile_prefix _).subset (mem_of_mem_trimBlanks h)
  exact (mem_swapPairs hswapped).resolve_right hne

variable {field : Field} {page : List UInt8} {offset width : Nat}

theorem decode_of_le (h : offset + width ≤ page.length) :
    decode page offset width = .ok (.ofRaw ((page.drop offset).take width)) := if_pos h

theorem bytes_eq_text_append (field : Field) :
    ∃ rest, field.bytes = field.text.toUTF8.toList ++ rest ∧ Text.Illegible rest :=
  Text.exists_illegible field.bytes

theorem text_eq_of_bytes_eq {text : String} {rest : List UInt8} (h : field.bytes = text.toUTF8.toList ++ rest)
    (hrest : Text.Illegible rest) : field.text = text := by
  rw [Field.text, h, Text.readable_append text hrest]

theorem Clean.null_not_mem_text (h : field.Clean) : '\x00' ∉ field.text.toList := by
  obtain ⟨rest, hbytes, _⟩ := field.bytes_eq_text_append
  intro hmem
  have hzero : 0 ∈ field.text.toUTF8.toList := (Text.mem_toUTF8_iff (c := '\x00') (by decide)).mpr hmem
  exact h.zeroFree (hbytes ▸ List.mem_append_left rest hzero)

/-- A field that is legible to its end shows no blank there. -/
theorem Clean.getLast?_text (h : field.Clean) (hlegible : field.bytes = field.text.toUTF8.toList) :
    field.text.toList.getLast? ≠ some ' ' := by
  intro hlast
  apply h.trimmed
  rw [hlegible]
  exact (Text.getLast?_toUTF8_iff (c := ' ') (by decide)).mpr hlast

theorem isEmpty_iff_of_legible (hlegible : field.bytes = field.text.toUTF8.toList) :
    field.isEmpty = true ↔ field.text = "" := by
  rw [isEmpty, List.isEmpty_iff]
  constructor
  · intro h
    rw [text, h]
    simpa using Text.readable_toUTF8 ""
  · intro h
    rw [hlegible, h]
    simp

theorem legible_of_ascii {rest : List UInt8} (hrest : Text.Illegible rest) (h : ∀ byte ∈ rest, byte.toNat < 0x80) :
    rest = [] := by
  cases rest with
  | nil => rfl
  | cons byte rest => exact absurd hrest (Text.not_illegible_cons (h byte (by simp)) rest)

/-- The text of a decoded field is what its bytes encode up to a byte that starts no character. It holds no NUL. If the
bytes end there, it also ends in no blank, and the field is empty exactly if the text is. If they go on, the field is not
empty, whatever it shows. In ASCII they always end there. -/
theorem decoded_text_clean_of_legible (h : offset + width ≤ page.length) :
    ∃ field rest, decode page offset width = .ok field ∧ field.bytes = field.text.toUTF8.toList ++ rest ∧
      Text.Illegible rest ∧ '\x00' ∉ field.text.toList ∧
      (rest = [] → field.text.toList.getLast? ≠ some ' ' ∧ (field.isEmpty = true ↔ field.text = "")) ∧
      (rest ≠ [] → field.isEmpty = false) ∧
      ((∀ byte ∈ (page.drop offset).take width, byte.toNat < 0x80) → rest = []) := by
  have hclean := clean_ofRaw ((page.drop offset).take width)
  obtain ⟨rest, hbytes, hrest⟩ := (ofRaw ((page.drop offset).take width)).bytes_eq_text_append
  refine ⟨_, rest, decode_of_le h, hbytes, hrest, hclean.null_not_mem_text, ?legible, ?cut, ?ascii⟩
  case legible =>
    rintro rfl
    rw [List.append_nil] at hbytes
    exact ⟨hclean.getLast?_text hbytes, isEmpty_iff_of_legible hbytes⟩
  case cut =>
    intro hne
    rw [isEmpty, hbytes]
    simp [hne]
  case ascii =>
    intro hascii
    apply legible_of_ascii hrest
    intro byte hmem
    exact hascii byte (mem_of_mem_ofRaw (hbytes ▸ List.mem_append_right _ hmem))

/-- A blank before an ill-formed byte is shown, and a field with nothing before such a byte is not empty. -/
theorem sample_blank_shown :
    (∃ field rest, decode [0x20, 0x41, 0x20, 0xff, 0x20, 0x20, 0x20, 0x20] 0 8 = .ok field ∧
      field.bytes = field.text.toUTF8.toList ++ rest ∧ rest = [0xff] ∧ field.text = "A " ∧
      field.text.toList.getLast? = some ' ') ∧
    ∃ field, decode [0x20, 0xff, 0x20, 0x20, 0x20, 0x20, 0x20, 0x20] 0 8 = .ok field ∧ field.text = "" ∧
      field.isEmpty = false := by
  have hill : Text.Illegible [0xff] := rfl
  have hshown : "A ".toUTF8.toList = [0x41, 0x20] := by
    rw [Text.toList_toUTF8]
    decide
  constructor
  · have h : 0 + 8 ≤ ([0x20, 0x41, 0x20, 0xff, 0x20, 0x20, 0x20, 0x20] : List UInt8).length := by decide
    obtain ⟨field, rest, hdecode, hbytes, -⟩ := decoded_text_clean_of_legible h
    obtain rfl : ⟨[0x41, 0x20, 0xff]⟩ = field := Except.ok.inj hdecode
    have htext : text ⟨[0x41, 0x20, 0xff]⟩ = "A " := text_eq_of_bytes_eq (by rw [hshown]; rfl) hill
    have hrest : rest = [0xff] := by
      rw [htext, hshown] at hbytes
      simpa using hbytes.symm
    exact ⟨_, rest, hdecode, hbytes, hrest, htext, htext.symm ▸ rfl⟩
  · have h : 0 + 8 ≤ ([0x20, 0xff, 0x20, 0x20, 0x20, 0x20, 0x20, 0x20] : List UInt8).length := by decide
    obtain ⟨field, rest, hdecode, hbytes, -, -, -, hcut, -⟩ := decoded_text_clean_of_legible h
    obtain rfl : ⟨[0xff]⟩ = field := Except.ok.inj hdecode
    have htext : text ⟨[0xff]⟩ = "" := text_eq_of_bytes_eq (by simp) hill
    have hne : rest ≠ [] := by
      rintro rfl
      rw [htext] at hbytes
      simp at hbytes
    exact ⟨_, hdecode, htext, hcut hne⟩

/-! ## Texts laid out in a field -/

/-- A text that can be read back from a field of some width: without NUL, and without a blank at the end. -/
structure Fits (width : Nat) (text : String) : Prop where
  size : text.utf8ByteSize ≤ width
  zeroFree : '\x00' ∉ text.toList
  trimmed : text.toList.getLast? ≠ some ' '

variable {text : String}

theorem Fits.le (h : Fits width text) : text.toUTF8.toList.length ≤ width := by
  rw [Text.toList_byteArray]
  exact h.size

end Field

end PolledAta.Identify
