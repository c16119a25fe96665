import Mathlib.Data.List.Basic
import Mathlib.Tactic.SplitIfs
import PolledAta.Text.Utf8

/-!
# The readable part of a byte string

What is readable is the longest part from the start that encodes characters: whatever is left over starts no character.
The bytes of a text are readable as that text.
-/

namespace PolledAta.Text

/-! ## Reading from the start -/

theorem charsFrom_eq_nil {bytes : ByteArray} {i : Nat} (h : bytes.utf8DecodeChar? i = none) :
    charsFrom bytes i = [] := by
  rw [charsFrom]
  split
  · rfl
  · rename_i hc
    rw [h] at hc
    cases hc

theorem charsFrom_eq_cons {bytes : ByteArray} {i : Nat} {c : Char} (h : bytes.utf8DecodeChar? i = some c) :
    charsFrom bytes i = c :: charsFrom bytes (i + c.utf8Size) := by
  rw [charsFrom]
  split
  · rename_i hc
    rw [h] at hc
    cases hc
  · rename_i hc
    rw [h] at hc
    cases hc
    rfl

theorem utf8DecodeChar?_append_size (front bytes : ByteArray) (i : Nat) :
    (front ++ bytes).utf8DecodeChar? (front.size + i) = bytes.utf8DecodeChar? i := by
  rw [ByteArray.utf8DecodeChar?_eq_utf8DecodeChar?_extract, ByteArray.size_append,
    ByteArray.extract_append_size_add, ← ByteArray.utf8DecodeChar?_eq_utf8DecodeChar?_extract]

/-- What stands before the place where reading starts does not matter. -/
theorem charsFrom_append_size (front bytes : ByteArray) (i : Nat) :
    charsFrom (front ++ bytes) (front.size + i) = charsFrom bytes i := by
  induction i using charsFrom.induct bytes with
  | case1 i hnone =>
      rw [charsFrom_eq_nil hnone, charsFrom_eq_nil]
      rw [utf8DecodeChar?_append_size, hnone]
  | case2 i c hsome ih =>
      rw [charsFrom_eq_cons hsome, charsFrom_eq_cons (c := c), Nat.add_assoc, ih]
      rw [utf8DecodeChar?_append_size, hsome]

theorem charsFrom_utf8Encode_append (text : List Char) (rest : ByteArray) :
    charsFrom (text.utf8Encode ++ rest) 0 = text ++ charsFrom rest 0 := by
  induction text with
  | nil => simp
  | cons c text ih =>
      have hfirst : ([c].utf8Encode ++ (text.utf8Encode ++ rest)).utf8DecodeChar? 0 = some c :=
        List.utf8DecodeChar?_utf8Encode_singleton_append
      have hsize : 0 + c.utf8Size = [c].utf8Encode.size + 0 := by simp [List.utf8Encode_singleton]
      rw [List.utf8Encode_cons, ByteArray.append_assoc, charsFrom_eq_cons hfirst, hsize, charsFrom_append_size, ih,
        List.cons_append]

/-! ## Bytes of texts -/

theorem toList_byteArray (bytes : ByteArray) : bytes.toList = bytes.data.toList := by
  have hloop (i : Nat) (acc : List UInt8) :
      ByteArray.toList.loop bytes i acc = acc.reverse ++ bytes.data.toList.drop i := by
    fun_induction ByteArray.toList.loop bytes i acc with
    | case1 i acc hi ih =>
        have hi : i < bytes.data.toList.length := hi
        have hbyte : bytes.get! i = bytes.data.toList[i] := by
          rw [Array.getElem_toList]
          exact getElem!_pos bytes.data i hi
        rw [ih, List.drop_eq_getElem_cons hi, List.reverse_cons, List.append_assoc, hbyte]
        rfl
    | case2 i acc hi =>
        have hi : bytes.data.toList.length ≤ i := Nat.not_lt.mp hi
        rw [List.drop_eq_nil_of_le hi, List.append_nil]
  exact hloop 0 []

theorem toList_toUTF8 (text : String) : text.toUTF8.toList = text.toList.flatMap String.utf8EncodeChar := by
  rw [toList_byteArray, String.toUTF8_eq_toByteArray, ← String.utf8Encode_toList, List.utf8Encode,
    List.toList_data_toByteArray]

/-- The first of the bytes, if there is one, starts no character. -/
def Illegible (bytes : List UInt8) : Prop := (ByteArray.mk bytes.toArray).utf8DecodeChar? 0 = none

theorem mk_toUTF8_append (text : String) (rest : List UInt8) :
    ByteArray.mk (text.toUTF8.toList ++ rest).toArray = text.toList.utf8Encode ++ ByteArray.mk rest.toArray := by
  refine ByteArray.ext (Array.toList_inj.mp ?_)
  rw [toList_byteArray, String.toUTF8_eq_toByteArray, String.utf8Encode_toList]
  simp

/-- Reading stops at the first byte that starts no character. -/
theorem readable_append (text : String) {rest : List UInt8} (h : Illegible rest) :
    readable (text.toUTF8.toList ++ rest) = text := by
  rw [readable, mk_toUTF8_append, charsFrom_utf8Encode_append, charsFrom_eq_nil h, List.append_nil, String.ofList_toList]

theorem illegible_nil : Illegible [] := rfl

theorem readable_toUTF8 (text : String) : readable text.toUTF8.toList = text := by
  simpa using readable_append text illegible_nil

/-- What is not readable starts no character. -/
theorem exists_illegible (bytes : List UInt8) :
    ∃ rest, bytes = (readable bytes).toUTF8.toList ++ rest ∧ Illegible rest := by
  suffices h : ∃ (text : String) (rest : List UInt8), bytes = text.toUTF8.toList ++ rest ∧ Illegible rest by
    obtain ⟨text, rest, rfl, hrest⟩ := h
    exact ⟨rest, by rw [readable_append text hrest], hrest⟩
  induction hn : bytes.length using Nat.strongRecOn generalizing bytes with
  | ind n ih =>
      cases hc : (ByteArray.mk bytes.toArray).utf8DecodeChar? 0 with
      | none => exact ⟨"", bytes, by simp, hc⟩
      | some c =>
          obtain ⟨after, hafter⟩ := ByteArray.exists_of_utf8DecodeChar?_eq_some hc
          have hbytes : bytes = String.utf8EncodeChar c ++ after.data.toList := by
            simpa using congrArg (fun bytes : ByteArray => bytes.data.toList) hafter
          -- a character takes up at least one byte, so what comes after it is shorter
          have hshorter : after.data.toList.length < n := by
            have := c.utf8Size_pos
            rw [← hn, hbytes, List.length_append, String.length_utf8EncodeChar]
            omega
          obtain ⟨text, rest, htext, hrest⟩ := ih _ hshorter _ rfl
          refine ⟨String.ofList (c :: text.toList), rest, ?_, hrest⟩
          rw [hbytes, htext, toList_toUTF8, toList_toUTF8, String.toList_ofList, List.flatMap_cons, List.append_assoc]

/-! ## Characters of one byte -/

theorem utf8EncodeChar_of_lt {c : Char} (h : c.toNat < 0x80) : String.utf8EncodeChar c = [UInt8.ofNat c.toNat] := by
  rw [String.utf8EncodeChar, if_pos (show c.val.toNat ≤ 0x7f from Nat.le_of_lt_succ h)]
  rfl

/-- The bytes of a longer character are all above those of the characters of one byte. -/
theorem le_of_mem_utf8EncodeChar {c : Char} {byte : UInt8} (h : 0x80 ≤ c.toNat)
    (hb : byte ∈ String.utf8EncodeChar c) : 0x80 ≤ byte.toNat := by
  rw [← Char.toNat_val] at h
  rw [String.utf8EncodeChar, if_neg (by omega)] at hb
  split_ifs at hb
  all_goals
    simp only [List.mem_cons, List.not_mem_nil, or_false] at hb
  · rcases hb with rfl | rfl <;> rw [UInt8.toNat_ofNat'] <;> omega
  · rcases hb with rfl | rfl | rfl <;> rw [UInt8.toNat_ofNat'] <;> omega
  · rcases hb with rfl | rfl | rfl | rfl <;> rw [UInt8.toNat_ofNat'] <;> omega

theorem eq_of_mem_utf8EncodeChar {c d : Char} (hc : c.toNat < 0x80)
    (h : UInt8.ofNat c.toNat ∈ String.utf8EncodeChar d) : d = c := by
  have hlow : (UInt8.ofNat c.toNat).toNat = c.toNat := by
    rw [UInt8.toNat_ofNat', Nat.mod_eq_of_lt (by omega)]
  have hd : d.toNat < 0x80 := by
    by_contra hd
    have := le_of_mem_utf8EncodeChar (Nat.not_lt.mp hd) h
    omega
  rw [utf8EncodeChar_of_lt hd, List.mem_singleton] at h
  have := congrArg UInt8.toNat h
  rw [hlow, UInt8.toNat_ofNat', Nat.mod_eq_of_lt (by omega)] at this
  exact Char.toNat_inj.mp this.symm

variable {text : String} {c : Char}

theorem mem_toUTF8_iff (hc : c.toNat < 0x80) : UInt8.ofNat c.toNat ∈ text.toUTF8.toList ↔ c ∈ text.toList := by
  rw [toList_toUTF8, List.mem_flatMap]
  constructor
  · rintro ⟨d, hd, hmem⟩
    exact eq_of_mem_utf8EncodeChar hc hmem ▸ hd
  · intro h
    exact ⟨c, h, by simp [utf8EncodeChar_of_lt hc]⟩

theorem getLast?_toUTF8_iff (hc : c.toNat < 0x80) :
    text.toUTF8.toList.getLast? = some (UInt8.ofNat c.toNat) ↔ text.toList.getLast? = some c := by
  rw [toList_toUTF8]
  rcases List.eq_nil_or_concat' text.toList with h | ⟨front, d, h⟩
  · simp [h]
  · have hne : String.utf8EncodeChar d ≠ [] := String.utf8EncodeChar_ne_nil
    rw [h, List.flatMap_append, List.flatMap_singleton, List.getLast?_append_of_ne_nil _ hne, List.getLast?_concat,
      Option.some_inj]
    constructor
    · intro hlast
      exact eq_of_mem_utf8EncodeChar hc (List.mem_of_getLast? hlast)
    · rintro rfl
      simp [utf8EncodeChar_of_lt hc]

/-- A byte below 128 is a character. -/
theorem not_illegible_cons {byte : UInt8} (h : byte.toNat < 0x80) (rest : List UInt8) : ¬Illegible (byte :: rest) := by
  have hchar : (Char.ofUInt8 byte).toNat = byte.toNat := rfl
  have hone : String.utf8EncodeChar (Char.ofUInt8 byte) = [byte] := by
    rw [utf8EncodeChar_of_lt (hchar ▸ h), hchar, UInt8.ofNat_toNat]
  have hbytes : ByteArray.mk (byte :: rest).toArray
      = (String.utf8EncodeChar (Char.ofUInt8 byte)).toByteArray ++ ByteArray.mk rest.toArray := by
    rw [hone]
    exact ByteArray.ext (Array.toList_inj.mp (by simp))
  rw [Illegible, hbytes, ByteArray.utf8DecodeChar?_utf8EncodeChar_append]
  nofun

end PolledAta.Text
