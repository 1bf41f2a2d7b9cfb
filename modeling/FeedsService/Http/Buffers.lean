import FeedsService.Library.Bytes

/-!
# The buffers of the web server

`sb_Buffer` of `sandbird.c`: a block of `cap` bytes of which the first `len` are
in use.  The block is asked for with `realloc`, which may refuse; `grants` says
which sizes it gives at the time of the call.  A capacity stays below half the
address space, so that doubling it does not wrap.
-/

namespace FeedsService.Http

open FeedsService.Library

/-- The bytes in use and the size of the block that holds them. -/
structure SbBuffer where
  bytes : Bytes
  cap : ℕ
  fits : bytes.length ≤ cap
  deriving DecidableEq

namespace SbBuffer

/-- `sb_buffer_init`. -/
def init : SbBuffer where
  bytes := []
  cap := 0
  fits := Nat.le_refl 0

/-- Setting `len` to a smaller value. -/
def truncate (buf : SbBuffer) (len : ℕ) : SbBuffer where
  bytes := buf.bytes.take len
  cap := buf.cap
  fits := Nat.le_trans (List.length_take_le' _ _) buf.fits

/-- `sb_buffer_shift`. -/
def shift (buf : SbBuffer) (n : ℕ) : SbBuffer where
  bytes := buf.bytes.drop n
  cap := buf.cap
  fits := Nat.le_trans (by simp) buf.fits

/-- `sb_buffer_reserve`; `none` stands for `SB_EOUTOFMEM`. -/
def reserve (grants : ℕ → Bool) (buf : SbBuffer) (n : ℕ) : Option SbBuffer :=
  if h : n ≤ buf.cap then
    some buf
  else if grants n then
    some ⟨buf.bytes, n, Nat.le_trans buf.fits (Nat.le_of_not_le h)⟩
  else
    none

/-- `(cap << 1) | (!cap)`. -/
def grown (cap : ℕ) : ℕ :=
  if cap = 0 then 1 else 2 * cap

theorem lt_grown (cap : ℕ) : cap < grown cap := by
  unfold grown
  split <;> omega

/-- `sb_buffer_push_char`. -/
def pushChar (grants : ℕ → Bool) (buf : SbBuffer) (chr : UInt8) : Option SbBuffer :=
  if hfull : buf.bytes.length = buf.cap then
    if grants (grown buf.cap) then
      some ⟨buf.bytes ++ [chr], grown buf.cap, by
        have := lt_grown buf.cap
        rw [List.length_append, List.length_singleton]
        omega⟩
    else
      none
  else
    some ⟨buf.bytes ++ [chr], buf.cap, by
      have := buf.fits
      rw [List.length_append, List.length_singleton]
      omega⟩

/-- The loop of `sb_buffer_push_str`, and whether it came to its end. -/
def pushChars (grants : ℕ → Bool) : SbBuffer → Bytes → SbBuffer × Bool
  | buf, [] => (buf, true)
  | buf, chr :: str =>
      match buf.pushChar grants chr with
      | none => (buf, false)
      | some buf => pushChars grants buf str

/-- `sb_buffer_push_str`, and whether it succeeded.  `sb_buffer_writef` pushes
the text that it formats in the same way. -/
def pushStr (grants : ℕ → Bool) (buf : SbBuffer) (str : Bytes) : SbBuffer × Bool :=
  match pushChars grants buf str with
  | (pushed, true) => (pushed, true)
  | (pushed, false) => (pushed.truncate buf.bytes.length, false)

/-- `sb_buffer_null_terminate`: the NUL is behind the bytes in use. -/
def nullTerminate (grants : ℕ → Bool) (buf : SbBuffer) : Option SbBuffer :=
  (buf.pushChar grants 0).map fun pushed => pushed.truncate (pushed.bytes.length - 1)

@[simp]
theorem bytes_init : init.bytes = [] :=
  rfl

@[simp]
theorem bytes_shift (buf : SbBuffer) (n : ℕ) : (buf.shift n).bytes = buf.bytes.drop n :=
  rfl

variable {grants : ℕ → Bool} {buf pushed : SbBuffer}

theorem bytes_reserve {n : ℕ} (hreserve : buf.reserve grants n = some pushed) :
    pushed.bytes = buf.bytes ∧ n ≤ pushed.cap := by
  unfold reserve at hreserve
  split at hreserve
  · cases hreserve
    exact ⟨rfl, ‹_›⟩
  · split at hreserve
    · cases hreserve
      exact ⟨rfl, Nat.le_refl n⟩
    · cases hreserve

theorem bytes_pushChar {chr : UInt8} (hpush : buf.pushChar grants chr = some pushed) :
    pushed.bytes = buf.bytes ++ [chr] := by
  unfold pushChar at hpush
  split at hpush
  · split at hpush
    · cases hpush
      rfl
    · cases hpush
  · cases hpush
    rfl

theorem bytes_pushChars {str : Bytes} {complete : Bool}
    (hpush : pushChars grants buf str = (pushed, complete)) :
    ∃ done, done <+: str ∧ pushed.bytes = buf.bytes ++ done ∧ (complete = true → done = str) := by
  induction str generalizing buf with
  | nil =>
      cases hpush
      exact ⟨[], List.prefix_rfl, (List.append_nil _).symm, fun _ => rfl⟩
  | cons chr str ih =>
      rw [pushChars] at hpush
      split at hpush
      · cases hpush
        exact ⟨[], List.nil_prefix, (List.append_nil _).symm, fun h => nomatch h⟩
      · rename_i next hnext
        obtain ⟨done, hstarts, hbytes, hall⟩ := ih hpush
        refine ⟨chr :: done, List.cons_prefix_cons.mpr ⟨rfl, hstarts⟩, ?_, ?_⟩
        · rw [hbytes, bytes_pushChar hnext, List.append_assoc, List.singleton_append]
        · intro hcomplete
          rw [hall hcomplete]

/-- A string is pushed whole or not at all. -/
theorem bytes_pushStr {str : Bytes} {complete : Bool}
    (hpush : pushStr grants buf str = (pushed, complete)) :
    pushed.bytes = buf.bytes ++ if complete then str else [] := by
  unfold pushStr at hpush
  split at hpush
  · rename_i chars hchars
    cases hpush
    obtain ⟨done, -, hbytes, hall⟩ := bytes_pushChars hchars
    rw [hbytes, hall rfl, if_pos rfl]
  · rename_i chars hchars
    cases hpush
    obtain ⟨done, -, hbytes, -⟩ := bytes_pushChars hchars
    simp [truncate, hbytes]

theorem bytes_nullTerminate (hterminate : buf.nullTerminate grants = some pushed) :
    pushed.bytes = buf.bytes := by
  obtain ⟨chars, hchars, rfl⟩ := Option.map_eq_some_iff.mp hterminate
  simp [truncate, bytes_pushChar hchars]

section Granted

variable (hgrants : ∀ n, grants n = true)

include hgrants

theorem pushChar_granted (buf : SbBuffer) (chr : UInt8) :
    ∃ pushed, buf.pushChar grants chr = some pushed := by
  unfold pushChar
  rw [hgrants]
  split <;> exact ⟨_, rfl⟩

theorem nullTerminate_granted (buf : SbBuffer) :
    ∃ pushed, buf.nullTerminate grants = some pushed := by
  obtain ⟨pushed, hpush⟩ := pushChar_granted hgrants buf 0
  exact ⟨_, Option.map_eq_some_iff.mpr ⟨pushed, hpush, rfl⟩⟩

theorem pushStr_granted (buf : SbBuffer) (str : Bytes) :
    (pushStr grants buf str).2 = true := by
  have hchars : ∀ buf, (pushChars grants buf str).2 = true := by
    induction str with
    | nil => exact fun _ => rfl
    | cons chr str ih =>
        intro buf
        obtain ⟨pushed, hpush⟩ := pushChar_granted hgrants buf chr
        rw [pushChars, hpush]
        exact ih pushed
  unfold pushStr
  split
  · rfl
  · rename_i pushed hpush
    have := hchars buf
    rw [hpush] at this
    exact this

end Granted

end SbBuffer

end FeedsService.Http
