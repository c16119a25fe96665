import Mathlib.Data.List.Forall2
import PolledAta.Proofs.Controllers

/-!
# Dumps read back

A dump is text of a fixed layout: where the lines and their columns stand does not depend on the bytes. So the digits of
the columns are a page that can be read again, and the characters beside them are only a comment.
-/

namespace PolledAta

/-! ## Reading numbers -/

namespace Text

def hexDigit? (c : Char) : Option Nat :=
  if '0' ≤ c ∧ c ≤ '9' then some (c.toNat - '0'.toNat)
  else if 'a' ≤ c ∧ c ≤ 'f' then some (c.toNat - 'a'.toNat + 10)
  else none

/-- The number that lower-case digits spell, the first one being the highest. -/
def hexNumber? (digits : List Char) : Option Nat :=
  digits.foldlM (fun n c => (hexDigit? c).map (16 * n + ·)) 0

theorem hexDigit?_digitChar {n : Nat} (h : n < 16) : hexDigit? n.digitChar = some n := by
  have hdigits : ∀ digit : Fin 16, hexDigit? digit.val.digitChar = some digit.val := by decide
  exact hdigits ⟨n, h⟩

theorem hexNumber?_append (digits : List Char) (c : Char) :
    hexNumber? (digits ++ [c]) = (hexNumber? digits).bind fun n => (hexDigit? c).map (16 * n + ·) := by
  rw [hexNumber?, List.foldlM_append]
  simp only [List.foldlM_cons, List.foldlM_nil, bind_pure]
  rfl

theorem hexNumber?_hexDigits {width n : Nat} (h : n < 16 ^ width) : hexNumber? (hexDigits width n) = some n := by
  induction width generalizing n with
  | zero =>
      rw [Nat.lt_one_iff.mp h]
      rfl
  | succ width ih =>
      have hrest : n / 16 < 16 ^ width := Nat.div_lt_of_lt_mul (by rwa [Nat.pow_succ, Nat.mul_comm] at h)
      rw [hexDigits, hexNumber?_append, ih hrest, hexDigit?_digitChar (Nat.mod_lt n (by decide)), Option.bind_some,
        Option.map_some, Nat.div_add_mod]

end Text

namespace Identify

/-! ## Reading columns -/

/-- Reads `n` columns of two digits, each with a character after it. -/
def readColumns? : Nat → List Char → Option (List UInt8)
  | 0, _ => some []
  | n + 1, columns => do
    let byte ← Text.hexNumber? (columns.take 2)
    return .ofNat byte :: (← readColumns? n (columns.drop 3))

/-- The columns of a line start behind five characters. -/
def readLine? (line : String) : Option (List UInt8) := readColumns? 16 (line.toList.drop 5)

def readDump? : List String → Option (List UInt8)
  | [] => some []
  | line :: lines => do return (← readLine? line) ++ (← readDump? lines)

theorem hexColumns_cons (byte : UInt8) (bytes : List UInt8) :
    hexColumns (byte :: bytes) = Text.hexDigits 2 byte.toNat ++ [' '] ++ hexColumns bytes :=
  List.flatMap_cons

@[simp]
theorem length_hexColumns (bytes : List UInt8) : (hexColumns bytes).length = 3 * bytes.length := by
  induction bytes with
  | nil => rfl
  | cons byte bytes ih =>
      rw [hexColumns_cons, List.length_append, ih]
      simp
      omega

theorem readColumns?_hexColumns (bytes : List UInt8) (rest : List Char) :
    readColumns? bytes.length (hexColumns bytes ++ rest) = some bytes := by
  induction bytes with
  | nil => rfl
  | cons byte bytes ih =>
      have hdigits : (Text.hexDigits 2 byte.toNat).length = 2 := Text.length_hexDigits ..
      have htake : (hexColumns (byte :: bytes) ++ rest).take 2 = Text.hexDigits 2 byte.toNat := by
        rw [hexColumns_cons, List.append_assoc, List.append_assoc, List.take_left' hdigits]
      have hdrop : (hexColumns (byte :: bytes) ++ rest).drop 3 = hexColumns bytes ++ rest := by
        rw [hexColumns_cons, List.append_assoc, List.drop_left' (by simp)]
      rw [List.length_cons, readColumns?, htake, hdrop, ih, Text.hexNumber?_hexDigits byte.toNat_lt]
      exact congrArg (fun value => some (value :: bytes)) (UInt8.ofNat_toNat ..)

/-! ## Lines -/

/-- A printable byte stands for itself, and a dot stands for every other one. -/
def Depicts (c : Char) (byte : UInt8) : Prop :=
  if 0x20 ≤ byte.toNat ∧ byte.toNat ≤ 0x7e then c.toNat = byte.toNat else c = '.'

theorem depicts_printable (byte : UInt8) : Depicts (printable byte) byte := by
  have hrange : 0x20 ≤ byte ∧ byte < 0x7f ↔ 0x20 ≤ byte.toNat ∧ byte.toNat ≤ 0x7e :=
    and_congr UInt8.le_iff_toNat_le (UInt8.lt_iff_toNat_lt.trans Nat.lt_succ_iff)
  by_cases h : 0x20 ≤ byte.toNat ∧ byte.toNat ≤ 0x7e
  · have hvalid : byte.toNat.isValidChar := .inl (by omega)
    rw [Depicts, if_pos h, printable, if_pos (hrange.mpr h), Char.ofNat, dif_pos hvalid]
    rfl
  · rw [Depicts, if_neg h, printable, if_neg (hrange.not.mpr h)]

/-- What a line tells of the sixteen bytes at an offset: where they lie, what they are, and how they look as text. -/
structure Displays (line : String) (offset : Nat) (bytes : List UInt8) : Prop where
  length : line.length = 72
  label : Text.hexNumber? (line.toList.take 3) = some offset
  columns : readLine? line = some bytes
  text : List.Forall₂ Depicts (line.toList.drop 56) bytes

theorem displays_dumpLine {offset : Nat} {bytes : List UInt8} (hoffset : offset < 0x1000) (hbytes : bytes.length = 16) :
    Displays (dumpLine offset bytes) offset bytes := by
  have hlabel : (Text.hexDigits 3 offset).length = 3 := Text.length_hexDigits ..
  have hline : (dumpLine offset bytes).toList = Text.hexDigits 3 offset ++ ([':', ' '] ++ (hexColumns bytes ++
      ([' ', ' ', ' '] ++ bytes.map printable))) := by
    simp only [dumpLine, String.toList_ofList, List.append_assoc]
  constructor
  case length =>
    rw [← String.length_toList, hline]
    simp [hbytes]
  case label =>
    rw [hline, List.take_left' hlabel, Text.hexNumber?_hexDigits hoffset]
  case columns =>
    have hcolumns : (dumpLine offset bytes).toList.drop 5 =
        hexColumns bytes ++ ([' ', ' ', ' '] ++ bytes.map printable) := by
      rw [hline, ← List.append_assoc, List.drop_left' (by simp)]
    rw [readLine?, hcolumns, ← hbytes, readColumns?_hexColumns]
  case text =>
    have htext : (dumpLine offset bytes).toList.drop 56 = bytes.map printable := by
      rw [hline, ← List.append_assoc, ← List.append_assoc, ← List.append_assoc, List.drop_left' (by simp [hbytes])]
    rw [htext, List.forall₂_map_left_iff, List.forall₂_same]
    exact fun byte _ => depicts_printable byte

/-! ## Pages -/

namespace Page

def row (page : Page) (row : Nat) : List UInt8 := (page.bytes.toList.drop (row * 16)).take 16

def line (page : Page) (row : Nat) : String := dumpLine (row * 16) (page.row row)

variable (page : Page) {row : Nat}

theorem dump_eq : page.dump = (List.range' 0 32).map page.line := by
  rw [← List.range_eq_range']
  rfl

theorem displays_line (h : row < 32) : Displays (page.line row) (row * 16) (page.row row) := by
  refine displays_dumpLine (by omega) ?_
  rw [Page.row, List.length_take, List.length_drop, Vector.length_toList]
  omega

/-- Lines that stand one after the other read back as the bytes that lie one after the other. -/
theorem readDump?_lines {n : Nat} (h : row + n ≤ 32) :
    readDump? ((List.range' row n).map page.line) = some ((page.bytes.toList.drop (row * 16)).take (n * 16)) := by
  induction n generalizing row with
  | zero =>
      rw [Nat.zero_mul, List.take_zero]
      rfl
  | succ n ih =>
      have hrow : readLine? (page.line row) = some (page.row row) := (page.displays_line (by omega)).columns
      have hrows : (page.bytes.toList.drop (row * 16)).take ((n + 1) * 16) =
          page.row row ++ (page.bytes.toList.drop ((row + 1) * 16)).take (n * 16) := by
        rw [Nat.add_mul, Nat.one_mul, Nat.add_comm, List.take_add, List.drop_drop, Page.row, Nat.add_mul, Nat.one_mul]
      rw [List.range'_succ, List.map_cons, readDump?, hrow, ih (by omega), hrows]
      rfl

theorem readDump?_dump : readDump? page.dump = some page.bytes.toList := by
  have hwhole : page.bytes.toList.take (32 * 16) = page.bytes.toList := List.take_of_length_le (by simp)
  rw [dump_eq, page.readDump?_lines (by decide), Nat.zero_mul, List.drop_zero, hwhole]

theorem dump_injective : Function.Injective Page.dump := by
  intro first second h
  have hread : some first.bytes.toList = some second.bytes.toList := by
    rw [← first.readDump?_dump, ← second.readDump?_dump, h]
  have hbytes : first.bytes = second.bytes := Vector.toList_inj.mp (Option.some.inj hread)
  cases first
  exact congrArg Page.mk hbytes

/--
The dump of a page is 32 lines of the log, one for each sixteen bytes. Its columns read back as the page, so different
pages have different dumps.
-/
theorem dump_loses_nothing {δ : Type} (ide : Ide δ) (page : Page) :
    IdeM.dumpPage page.dump ide = .ok ((), ide.noted (page.dump.map (⟨.trace, ·⟩))) ∧ page.dump.length = 32 ∧
    (∀ row : Fin 32, ∃ line, page.dump[row.val]? = some line ∧
      Displays line (row.val * 16) ((page.bytes.toList.drop (row.val * 16)).take 16)) ∧
    readDump? page.dump = some page.bytes.toList ∧
    ∀ other : Page, other.dump = page.dump ↔ other = page := by
  refine ⟨IdeM.dumpPage_run .., ?_, fun row => ⟨page.line row, ?_, page.displays_line row.isLt⟩, page.readDump?_dump,
    fun other => dump_injective.eq_iff⟩
  · rw [dump_eq, List.length_map, List.length_range']
  · rw [dump_eq, List.getElem?_map, List.getElem?_range' row.isLt]
    simp

end Page

end Identify

end PolledAta
