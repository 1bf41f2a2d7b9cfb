import FeedsService.Http.Headers
import FeedsService.Library.BitRows

/-!
# The picture of the feeds URL

`qrencode` of `did.c` draws the modules that `QRcode_encodeString` finds as rows of
one bit a pixel, with a margin around them.  What libpng makes of the rows is an
argument.
-/

namespace FeedsService.Http

open FeedsService.Library

/-- `QRcode`: the modules, line by line. -/
structure QrCode where
  width : ℕ
  data : Bytes
  square : data.length = width * width

section Drawing

def realWidth (margin size : ℕ) (code : QrCode) : ℕ :=
  (code.width + margin * 2) * size

/-- How many bytes a row has. -/
def rowBytes (margin size : ℕ) (code : QrCode) : ℕ :=
  (realWidth margin size code + 7) / 8

/-- `memset(row, 0xff, (realwidth + 7) / 8)`. -/
def blankRow (margin size : ℕ) (code : QrCode) : Bytes :=
  List.replicate (rowBytes margin size code) 255

/-- One module of a line, as often as a module is wide. -/
def putModule (module : UInt8) : ℕ → Bytes × BitCursor → Except Fault (Bytes × BitCursor)
  | 0, state => .ok state
  | xx + 1, (row, q) => do
      let row ← xorBit row q module
      putModule module xx (row, q.next)

/-- The modules of one line, and where the data goes on. -/
def putLine (size : ℕ) : ℕ → Bytes × BitCursor → Bytes → Except Fault (Bytes × Bytes)
  | 0, (row, _), p => .ok (row, p)
  | x + 1, state, p => do
      let module ← byteAt p 0
      let state ← putModule module size state
      putLine size x state (p.drop 1)

/-- The rows of the lines. -/
def dataRows (margin size : ℕ) (code : QrCode) : ℕ → Bytes → Except Fault (List Bytes)
  | 0, _ => .ok []
  | y + 1, p => do
      let line ← putLine size code.width (blankRow margin size code, .at (margin * size)) p
      let rows ← dataRows margin size code y line.2
      .ok (List.replicate size line.1 ++ rows)

/-- All the rows that `png_write_row` gets. -/
def qrRows (margin size : ℕ) (code : QrCode) : Except Fault (List Bytes) := do
  let rows ← dataRows margin size code code.width code.data
  let border := List.replicate (margin * size) (blankRow margin size code)
  .ok (border ++ rows ++ border)

/-- `qrencode`: the file it writes, or that it fails. -/
def qrencode (encodeString : Bytes → Option QrCode) (writePng : List Bytes → Option Bytes)
    (intext : Bytes) : Except Fault (Option Bytes) :=
  match encodeString intext with
  | none => .ok none
  | some code => (qrRows 4 3 code).map writePng

end Drawing

section Lines

theorem putModule_eq (module : UInt8) (count : ℕ) (state : Bytes × BitCursor) :
    putModule module count state = xorBits state (List.replicate count module) := by
  induction count generalizing state with
  | zero => rfl
  | succ xx ih =>
      obtain ⟨row, q⟩ := state
      rw [putModule, List.replicate_succ, xorBits]
      cases xorBit row q module with
      | error fault => rfl
      | ok row => exact ih _

/-- The bytes of a line, each as often as a module is wide. -/
def stretched (size : ℕ) (line : Bytes) : Bytes :=
  line.flatMap fun module => List.replicate size module

theorem length_stretched (size : ℕ) (line : Bytes) :
    (stretched size line).length = line.length * size := by
  simp [stretched, List.length_flatMap, List.map_const']

theorem getElem?_stretched {size : ℕ} (hsize : 0 < size) (modules : Bytes) (i : ℕ) :
    (stretched size modules)[i]? = modules[i / size]? := by
  induction modules generalizing i with
  | nil => rfl
  | cons module modules ih =>
      rw [stretched, List.flatMap_cons]
      by_cases hi : i < size
      · rw [List.getElem?_append_left (by simpa using hi), Nat.div_eq_of_lt hi]
        simp [hi]
      · have hge : size ≤ i := not_lt.mp hi
        rw [List.getElem?_append_right (by simpa using hge), List.length_replicate]
        have hdiv : i / size = (i - size) / size + 1 := by
          rw [← Nat.div_eq_sub_div hsize hge]
        rw [hdiv, List.getElem?_cons_succ]
        exact ih (i - size)

theorem putLine_eq (size : ℕ) (line rest : Bytes) (state : Bytes × BitCursor) :
    putLine size line.length state (line ++ rest) =
      (xorBits state (stretched size line)).map fun state => (state.1, rest) := by
  induction line generalizing state with
  | nil => rfl
  | cons module line ih =>
      have hread : byteAt (module :: line ++ rest) 0 = .ok module := rfl
      rw [List.length_cons, putLine, hread, ok_bind, putModule_eq, stretched, List.flatMap_cons,
        xorBits_append]
      cases xorBits state (List.replicate size module) with
      | error fault => rfl
      | ok state => exact ih state

end Lines

section Pixels

variable {margin size : ℕ} {code : QrCode}

/-- Whether a module is dark; outside of the code none is. -/
def QrCode.dark (code : QrCode) (line column : ℕ) : Bool :=
  decide (column < code.width) && (code.data[line * code.width + column]?.map lowBit).getD false

/-- A picture of the code. -/
structure Drawn (margin size : ℕ) (code : QrCode) (rows : List Bytes) : Prop where
  height : rows.length = realWidth margin size code
  width : ∀ row ∈ rows, row.length = rowBytes margin size code
  /-- a pixel is dark when it lies in a dark module -/
  pixel : ∀ x y row, rows[y]? = some row → x < realWidth margin size code →
    bitAt row x = some (!(decide (margin ≤ x / size ∧ margin ≤ y / size) &&
      code.dark (y / size - margin) (x / size - margin)))

/-- A line of modules fits its row. -/
theorem putLine_flipped (margin size : ℕ) {line : Bytes} (hline : line.length = code.width)
    (rest : Bytes) :
    ∃ row, putLine size code.width (blankRow margin size code, .at (margin * size))
        (line ++ rest) = .ok (row, rest) ∧
      Flipped (blankRow margin size code) row (bitsFrom (margin * size) (stretched size line)) := by
  have hroom : (BitCursor.at (margin * size)).position + (stretched size line).length ≤
      8 * (blankRow margin size code).length := by
    have hwidth : realWidth margin size code =
        code.width * size + margin * size + margin * size := by
      rw [realWidth, Nat.add_mul, Nat.mul_two, Nat.add_mul, Nat.add_assoc]
    rw [BitCursor.position_at, length_stretched, hline, blankRow, List.length_replicate, rowBytes,
      hwidth]
    omega
  obtain ⟨row, q, hrow, hflipped⟩ := xorBits_flipped _ _ hroom
  refine ⟨row, ?_, BitCursor.position_at (margin * size) ▸ hflipped⟩
  rw [← hline, putLine_eq, hrow]
  rfl

theorem bitsFrom_stretched (hsize : 0 < size) (modules : Bytes) (i : ℕ) :
    bitsFrom (margin * size) (stretched size modules) i =
      (decide (margin ≤ i / size) && (modules[i / size - margin]?.map lowBit).getD false) := by
  have hdiv : (i - margin * size) / size = i / size - margin := by
    rw [Nat.mul_comm margin, Nat.sub_mul_div]
  rw [bitsFrom, getElem?_stretched hsize, hdiv,
    decide_eq_decide.mpr (Nat.le_div_iff_mul_le hsize).symm]

theorem dataRows_flipped (margin size : ℕ) {y : ℕ} (p : Bytes) (hp : p.length = y * code.width) :
    ∃ rows, dataRows margin size code y p = .ok rows ∧ rows.length = y * size ∧
      ∀ j row, rows[j]? = some row → Flipped (blankRow margin size code) row
        (bitsFrom (margin * size)
          (stretched size ((p.drop (j / size * code.width)).take code.width))) := by
  induction y generalizing p with
  | zero => exact ⟨[], rfl, by simp, fun j row hrow => by simp at hrow⟩
  | succ y ih =>
      rw [Nat.succ_mul] at hp
      have hline : (p.take code.width).length = code.width := by
        rw [List.length_take]
        omega
      obtain ⟨line, hput, hflipped⟩ := putLine_flipped margin size hline (p.drop code.width)
      obtain ⟨rows, hrows, hlength, hrest⟩ := ih (p.drop code.width)
        (by rw [List.length_drop]; omega)
      rw [List.take_append_drop] at hput
      refine ⟨List.replicate size line ++ rows, ?_, ?_, fun j row hrow => ?_⟩
      · rw [dataRows, hput, ok_bind, hrows, ok_bind]
      · rw [List.length_append, List.length_replicate, hlength, Nat.succ_mul, Nat.add_comm]
      · obtain hj | hj := lt_or_ge j size
        · rw [List.getElem?_append_left (by simpa using hj), List.getElem?_replicate, if_pos hj]
            at hrow
          cases hrow
          rw [Nat.div_eq_of_lt hj, Nat.zero_mul, List.drop_zero]
          exact hflipped
        · rw [List.getElem?_append_right (by simpa using hj), List.length_replicate] at hrow
          have hdiv : j / size = (j - size) / size + 1 := by
            obtain rfl | hsize := Nat.eq_zero_or_pos size
            · simp [hlength] at hrow
            · rw [← Nat.div_eq_sub_div hsize hj]
          have hsame := hrest _ _ hrow
          rw [List.drop_drop] at hsame
          rwa [hdiv, Nat.succ_mul, Nat.add_comm]

/-- A row with the bits of its line. -/
structure DrawnRow (margin size : ℕ) (code : QrCode) (y : ℕ) (row : Bytes) : Prop where
  flipped : Flipped (blankRow margin size code) row fun x =>
    decide (margin ≤ x / size ∧ margin ≤ y / size) &&
      code.dark (y / size - margin) (x / size - margin)

theorem DrawnRow.border {y : ℕ}
    (hborder : y / size < margin ∨ margin + code.width ≤ y / size) :
    DrawnRow margin size code y (blankRow margin size code) := by
  refine ⟨(Flipped.refl _).congr fun x => ?_⟩
  obtain habove | hbelow := hborder
  · rw [decide_eq_false fun h => absurd h.2 (not_le.mpr habove), Bool.false_and]
  · have hlight : code.dark (y / size - margin) (x / size - margin) = false := by
      have hline : code.width ≤ y / size - margin := by omega
      have hend : code.data.length ≤ (y / size - margin) * code.width + (x / size - margin) :=
        code.square ▸ (Nat.mul_le_mul_right _ hline).trans (Nat.le_add_right _ _)
      rw [QrCode.dark, List.getElem?_eq_none hend, Option.map_none, Option.getD_none,
        Bool.and_false]
    rw [hlight, Bool.and_false]

theorem DrawnRow.line (hsize : 0 < size) {y : ℕ} (hy : margin ≤ y / size) {row : Bytes}
    (hflipped : Flipped (blankRow margin size code) row (bitsFrom (margin * size)
      (stretched size ((code.data.drop ((y / size - margin) * code.width)).take code.width)))) :
    DrawnRow margin size code y row := by
  refine ⟨hflipped.congr fun x => ?_⟩
  rw [bitsFrom_stretched hsize, QrCode.dark, List.getElem?_take, List.getElem?_drop]
  by_cases hx : margin ≤ x / size
  · rw [decide_eq_true hx, decide_eq_true ⟨hx, hy⟩]
    split
    · rename_i hcolumn
      rw [decide_eq_true hcolumn, Bool.true_and, Bool.true_and]
    · rename_i hcolumn
      rw [decide_eq_false hcolumn]
      rfl
  · rw [decide_eq_false hx, decide_eq_false fun h => hx h.1, Bool.false_and, Bool.false_and]

/-- Every row is drawn, and nothing is written outside of a row. -/
theorem qrRows_drawn (hsize : 0 < size) (margin : ℕ) (code : QrCode) :
    ∃ rows, qrRows margin size code = .ok rows ∧ rows.length = realWidth margin size code ∧
      ∀ y row, rows[y]? = some row → DrawnRow margin size code y row := by
  obtain ⟨rows, hrows, hlength, hflipped⟩ := dataRows_flipped margin size code.data code.square
  let border := List.replicate (margin * size) (blankRow margin size code)
  have hborder : border.length = margin * size := List.length_replicate
  have hqr : qrRows margin size code = .ok (border ++ rows ++ border) := by
    rw [qrRows, hrows]
    rfl
  refine ⟨border ++ rows ++ border, hqr, ?_, fun y row hrow => ?_⟩
  · simp only [border, List.length_append, List.length_replicate, hlength, realWidth, Nat.add_mul,
      Nat.mul_two]
    omega
  · have hfirst : y < margin * size ↔ y / size < margin := (Nat.div_lt_iff_lt_mul hsize).symm
    rw [List.append_assoc] at hrow
    obtain hy | hy := lt_or_ge y (margin * size)
    · rw [List.getElem?_append_left (hborder ▸ hy), List.getElem?_replicate, if_pos hy] at hrow
      cases hrow
      exact .border (Or.inl (hfirst.mp hy))
    · rw [List.getElem?_append_right (hborder ▸ hy), hborder] at hrow
      have hdiv : (y - margin * size) / size = y / size - margin := by
        rw [Nat.mul_comm margin, Nat.sub_mul_div]
      have hmargin : margin ≤ y / size := not_lt.mp fun h => absurd (hfirst.mpr h) (not_lt.mpr hy)
      obtain hline | hline := lt_or_ge (y - margin * size) (code.width * size)
      · rw [List.getElem?_append_left (hlength ▸ hline)] at hrow
        exact .line hsize hmargin (hdiv ▸ hflipped _ _ hrow)
      · rw [List.getElem?_append_right (hlength ▸ hline), List.getElem?_replicate] at hrow
        split at hrow
        · cases hrow
          have hlines : code.width ≤ y / size - margin :=
            hdiv ▸ (Nat.le_div_iff_mul_le hsize).mpr hline
          exact .border (Or.inr (by omega))
        · cases hrow

/-- The picture that `qrencode` hands to libpng is the code it was given, three pixels a module
and four modules of margin, and no write leaves a row. -/
theorem qrencode_drawn (encodeString : Bytes → Option QrCode)
    (writePng : List Bytes → Option Bytes) (intext : Bytes) :
    qrencode encodeString writePng intext = .ok none ∧ encodeString intext = none ∨
      ∃ code rows, encodeString intext = some code ∧ Drawn 4 3 code rows ∧
        qrencode encodeString writePng intext = .ok (writePng rows) := by
  rw [qrencode]
  cases encodeString intext with
  | none => exact Or.inl ⟨rfl, rfl⟩
  | some code =>
      obtain ⟨rows, hrows, hheight, hdrawn⟩ := qrRows_drawn (by omega : 0 < 3) 4 code
      refine Or.inr ⟨code, rows, rfl, ⟨hheight, fun row hrow => ?_, fun x y row hrow hx => ?_⟩, ?_⟩
      · obtain ⟨y, hy⟩ := List.getElem?_of_mem hrow
        rw [(hdrawn y row hy).flipped.length]
        exact List.length_replicate
      · rw [(hdrawn y row hrow).flipped.flips, blankRow, bitAt_replicate, if_pos]
        · rw [Option.map_some, Bool.true_xor]
        · rw [rowBytes]
          omega
      · dsimp only
        rw [hrows]
        rfl

end Pixels

end FeedsService.Http
