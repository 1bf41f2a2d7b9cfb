import FeedsService.Http.Headers
import Mathlib.Data.Fin.VecNotation
import Mathlib.Tactic.IntervalCases

/-!
# Decoded paths

`url_decode` undoes any percent-encoding of a path and keeps what fits its
buffer.  A path that fills the buffer to the last byte is reported as truncated
although nothing is lost.
-/

namespace FeedsService.Http

open FeedsService.Library

/-- A hexadecimal digit, in either case. -/
structure IsHexDigit (chr : UInt8) (value : ℕ) : Prop where
  small : value < 16
  digit : chr = UInt8.ofNat (48 + value) ∧ value < 10 ∨
    (chr = UInt8.ofNat (55 + value) ∨ chr = UInt8.ofNat (87 + value)) ∧ 10 ≤ value

/-- The texts that stand for a path in a request line. -/
inductive Encodes : Bytes → Bytes → Prop
  | nil : Encodes [] []
  | literal {chr : UInt8} {path text : Bytes} (hzero : chr ≠ 0) (hstop : chr ∉ urlStops)
      (hpercent : chr ≠ 37) (hplus : chr ≠ 43) (hrest : Encodes path text) :
      Encodes (chr :: path) (chr :: text)
  | plus {path text : Bytes} (hrest : Encodes path text) : Encodes (space :: path) (43 :: text)
  | percent {high low : UInt8} {highValue lowValue : ℕ} {path text : Bytes}
      (hhigh : IsHexDigit high highValue) (hlow : IsHexDigit low lowValue)
      (hrest : Encodes path text) :
      Encodes (UInt8.ofNat (16 * highValue + lowValue) :: path) (37 :: high :: low :: text)

theorem IsHexDigit.ne_zero {chr : UInt8} {value : ℕ} (h : IsHexDigit chr value) : chr ≠ 0 := by
  obtain ⟨hsmall, hdigit⟩ := h
  rintro rfl
  interval_cases value <;> revert hdigit <;> decide

theorem IsHexDigit.hexToInt_eq {chr : UInt8} {value : ℕ} (h : IsHexDigit chr value) :
    hexToInt chr = UInt8.ofNat value := by
  obtain ⟨hsmall, ⟨rfl, hlow⟩ | ⟨rfl | rfl, hhigh⟩⟩ := h <;> interval_cases value <;> decide

theorem join_nibbles {high low : ℕ} (hhigh : high < 16) (hlow : low < 16) :
    (UInt8.ofNat high <<< 4) ||| UInt8.ofNat low = UInt8.ofNat (16 * high + low) := by
  have hall : ∀ high low : Fin 16, (UInt8.ofNat high <<< 4) ||| UInt8.ofNat low =
      UInt8.ofNat (16 * high + low) := by decide
  exact hall ⟨high, hhigh⟩ ⟨low, hlow⟩

theorem byteAt_zero (chr : UInt8) (str : Bytes) : byteAt (chr :: str) 0 = .ok chr :=
  rfl

theorem urlDecodeByte_literal {chr : UInt8} (hpercent : chr ≠ 37) (str : Bytes) :
    urlDecodeByte chr str = .ok (if chr = 43 then space else chr, str) := by
  rw [urlDecodeByte, if_neg hpercent]
  rfl

theorem urlDecodeByte_percent {high low : UInt8} {highValue lowValue : ℕ}
    (hhigh : IsHexDigit high highValue) (hlow : IsHexDigit low lowValue) (str : Bytes) :
    urlDecodeByte 37 (high :: low :: str) =
      .ok (UInt8.ofNat (16 * highValue + lowValue), str) := by
  have hlast : byteAt (high :: low :: str) 1 = .ok low := rfl
  rw [urlDecodeByte, if_pos rfl, byteAt_zero, ok_bind, if_neg hhigh.ne_zero, hlast, ok_bind,
    if_neg hlow.ne_zero, hhigh.hexToInt_eq, hlow.hexToInt_eq, join_nibbles hhigh.small hlow.small]
  rfl

theorem urlDecodeLoop_byte {chr byte : UInt8} {str next : Bytes}
    (hgoes : ¬ (chr = 0 ∨ chr ∈ urlStops)) (hbyte : urlDecodeByte chr str = .ok (byte, next))
    (len : ℕ) :
    urlDecodeLoop (len + 1) (chr :: str) =
      (urlDecodeLoop len next).map fun result => (byte :: result.1, result.2) := by
  rw [urlDecodeLoop, byteAt_zero, ok_bind, if_neg hgoes, List.drop_one, List.tail_cons, hbyte,
    ok_bind]
  dsimp only
  generalize urlDecodeLoop len next = result
  cases result <;> rfl

theorem urlDecodeLoop_encodes {path text : Bytes} (hencodes : Encodes path text) {stop : UInt8}
    (hstop : stop = 0 ∨ stop ∈ urlStops) (junk : Bytes) (len : ℕ) :
    urlDecodeLoop len (text ++ stop :: junk) = .ok (path.take len, len - path.length) := by
  induction hencodes generalizing len with
  | nil =>
      cases len with
      | zero => rfl
      | succ len =>
          rw [List.nil_append, urlDecodeLoop, byteAt_zero, ok_bind, if_pos hstop]
          rfl
  | literal hzero hnotStop hpercent hplus hrest ih =>
      cases len with
      | zero => simp [urlDecodeLoop, byteAt, Except.map]
      | succ len =>
          rw [List.cons_append,
            urlDecodeLoop_byte (not_or.mpr ⟨hzero, hnotStop⟩) (urlDecodeByte_literal hpercent _),
            ih, if_neg hplus]
          simp [Except.map]
  | plus hrest ih =>
      cases len with
      | zero => simp [urlDecodeLoop, byteAt, Except.map]
      | succ len =>
          rw [List.cons_append,
            urlDecodeLoop_byte (by decide) (urlDecodeByte_literal (by decide) _), ih]
          simp [Except.map]
  | percent hhigh hlow hrest ih =>
      cases len with
      | zero => simp [urlDecodeLoop, byteAt, Except.map]
      | succ len =>
          rw [List.cons_append, List.cons_append, List.cons_append,
            urlDecodeLoop_byte (by decide) (urlDecodeByte_percent hhigh hlow _), ih]
          simp [Except.map]

/-- On any string the loop stays inside it, and writes no more than it may. -/
theorem urlDecodeLoop_bounded {text : Bytes} (htext : 0 ∉ text) (junk : Bytes) (len : ℕ) :
    ∃ bytes left, urlDecodeLoop len (text ++ 0 :: junk) = .ok (bytes, left) ∧
      bytes.length + left = len := by
  induction len generalizing text with
  | zero =>
      cases text with
      | nil => exact ⟨[], 0, rfl, rfl⟩
      | cons chr text => exact ⟨[], 0, rfl, rfl⟩
  | succ len ih =>
      cases text with
      | nil => exact ⟨[], len + 1, rfl, Nat.zero_add _⟩
      | cons chr text =>
          by_cases hgoes : chr = 0 ∨ chr ∈ urlStops
          · refine ⟨[], len + 1, ?_, by simp⟩
            rw [List.cons_append, urlDecodeLoop, byteAt_zero, ok_bind, if_pos hgoes]
            rfl
          · have hrest : 0 ∉ text := fun h => htext (List.mem_cons_of_mem _ h)
            obtain ⟨byte, next, hbyte, hnext⟩ : ∃ byte next,
                urlDecodeByte chr (text ++ 0 :: junk) = .ok (byte, next ++ 0 :: junk) ∧
                  0 ∉ next := by
              by_cases hpercent : chr = 37
              · subst hpercent
                match text with
                | [] => exact ⟨37, [], rfl, List.not_mem_nil⟩
                | [high] =>
                    refine ⟨37, [high], ?_, hrest⟩
                    simp [urlDecodeByte, byteAt]
                | high :: low :: next =>
                    have hhigh : high ≠ 0 := fun h => hrest (h ▸ List.mem_cons_self)
                    have hlow : low ≠ 0 := by
                      rintro rfl
                      exact hrest (by simp)
                    refine ⟨hexToInt high <<< 4 ||| hexToInt low, next, ?_,
                      fun h => hrest (by simp [h])⟩
                    simp [urlDecodeByte, byteAt, hhigh, hlow, pure, Except.pure]
              · exact ⟨_, text, urlDecodeByte_literal hpercent _, hrest⟩
            obtain ⟨bytes, left, hloop, hsum⟩ := ih hnext
            refine ⟨byte :: bytes, left, ?_, by rw [List.length_cons]; omega⟩
            rw [List.cons_append, urlDecodeLoop_byte hgoes hbyte, hloop]
            rfl

/-- `url_decode` reads inside its string whatever it holds; what it writes, with its
NUL, fits the buffer, and it reports truncation when the buffer is full. -/
theorem urlDecode_bounded {text : Bytes} (htext : 0 ∉ text) (junk : Bytes) (len : ℕ)
    (hlen : 0 < len) (hfits : len < 2 ^ 64) :
    ∃ bytes, urlDecode (text ++ 0 :: junk) len =
        .ok (bytes ++ [0], decide (bytes.length + 1 = len)) ∧ bytes.length + 1 ≤ len := by
  have hroom : toUInt64 ((len : ℤ) - 1) = len - 1 := by
    unfold toUInt64
    omega
  obtain ⟨bytes, left, hloop, hsum⟩ := urlDecodeLoop_bounded htext junk (len - 1)
  refine ⟨bytes, ?_, by omega⟩
  rw [urlDecode, hroom, hloop, ok_bind]
  have hleft : left = 0 ↔ bytes.length + 1 = len := by omega
  dsimp only
  rw [decide_eq_decide.mpr hleft]
  rfl

/-- `url_decode` undoes every encoding of a path, up to the size of its buffer. -/
theorem urlDecode_encodes {path text : Bytes} (hencodes : Encodes path text) {stop : UInt8}
    (hstop : stop = 0 ∨ stop ∈ urlStops) (junk : Bytes) {len : ℕ} (hlen : 0 < len)
    (hfits : len < 2 ^ 64) :
    urlDecode (text ++ stop :: junk) len =
      .ok (path.take (len - 1) ++ [0], decide (len ≤ path.length + 1)) := by
  have hroom : toUInt64 ((len : ℤ) - 1) = len - 1 := by
    unfold toUInt64
    omega
  rw [urlDecode, hroom, urlDecodeLoop_encodes hencodes hstop, ok_bind]
  have hleft : len - 1 - path.length = 0 ↔ len ≤ path.length + 1 := by omega
  dsimp only
  rw [decide_eq_decide.mpr hleft]
  rfl

/-- A slash that is written in hexadecimal. -/
theorem urlDecode_encodes_slash :
    urlDecode (bytesOf "a%2F" ++ space :: bytesOf "HTTP/1.1") 512 =
      .ok ((bytesOf "a/").take 511 ++ [0], decide (512 ≤ (bytesOf "a/").length + 1)) := by
  have htwo : IsHexDigit 50 2 := ⟨by decide, by decide⟩
  have hfifteen : IsHexDigit 70 15 := ⟨by decide, by decide⟩
  exact urlDecode_encodes (.literal (by decide) (by decide) (by decide) (by decide)
    (.percent htwo hfifteen .nil)) (Or.inr (by decide)) _ (by decide) (by decide)

end FeedsService.Http
