import FeedsService.Session.RoundTrip

/-!
# Sending on a session

The two forms of `sendData` in `CarrierSessionHelper.cpp`: a vector for the head of a
response, a stream for its body file.  Every write to the session succeeds in full.  An
overflow of an `int` is undefined.
-/

namespace FeedsService.Session

open FeedsService.Library

/-- How a call ends, with what was written to the session. -/
inductive Sending
  | returned (ret : ℤ) (writes : List Bytes)
  | undefined
  | diverged
  deriving DecidableEq

/-- The bytes on the session when the call has returned. -/
def Sending.written : Sending → Bytes
  | .returned _ writes => writes.flatten
  | _ => []

def step : ℤ := 2048

/-- The loop of both forms, entered for at most `rounds` rounds.  What has been written so
far ends at `idx`, and so does what has been read of a stream; `goesOn` is the condition of
the loop and `left` what it takes for the size of the rest. -/
def sendLoop (goesOn : ℤ → Bool) (left : ℤ → ℤ) (ret : ℤ) (data : Bytes) :
    ℕ → ℤ → List Bytes → Sending
  | 0, _, _ => .diverged
  | rounds + 1, idx, writes =>
      if goesOn idx then
        let sendSize := if step < left idx then step else toInt32 (left idx)
        let writes := writes ++ [(data.drop idx.toNat).take sendSize.toNat]
        if idx + step < 2 ^ 31 then
          sendLoop goesOn left ret data rounds (idx + step) writes
        else
          .undefined
      else
        .returned ret writes

/-- `sendData` of a vector, whose size is a `size_t`. -/
def sendVector (data : Bytes) : Sending :=
  sendLoop (fun idx => toUInt64 idx < data.length) (fun idx => toUInt64 (data.length - idx))
    (toInt64 data.length) data (data.length + 1) 0 []

/-- `int dataSize = data.tellg()` -/
def dataSize (data : Bytes) : ℤ :=
  toInt32 (toInt64 data.length)

/-- `sendData` of a stream, whose size is an `int`. -/
def sendStream (data : Bytes) : Sending :=
  sendLoop (fun idx => idx < dataSize data) (fun idx => dataSize data - idx) (dataSize data)
    data (data.length + 1) 0 []

/-- The `bodySize` in the fixed part of a frame. -/
def announcedSize (info : Bytes) : ℤ :=
  toInt64 (decodeBE ((info.drop 16).take 8))

section Specifications

/-- The most that either form can send: the position behind it is no `int` any more. -/
def maxSendSize : ℕ := 2 ^ 31 - 2048

/-- Exactly the bytes are written, in order and in pieces of at most `step`. -/
def SendsAll (data : Bytes) (sending : Sending) : Prop :=
  ∃ ret writes, sending = .returned ret writes ∧ writes.flatten = data ∧
    ∀ piece ∈ writes, (piece.length : ℤ) ≤ step

variable {goesOn : ℤ → Bool} {left : ℤ → ℤ} {ret : ℤ} {data : Bytes}

/-- A loop over `size` bytes that stays below the bound writes them all. -/
theorem sendLoop_complete {size : ℕ}
    (hgoes : ∀ idx : ℕ, idx ≤ 2 ^ 31 → (goesOn idx = true ↔ idx < size))
    (hleft : ∀ idx : ℕ, idx < size → left idx = (size : ℤ) - idx) (hsize : size ≤ maxSendSize)
    (rounds idx : ℕ) (writes : List Bytes) (hrounds : size - idx < rounds)
    (hbound : idx ≤ 2 ^ 31) :
    ∃ pieces, sendLoop goesOn left ret data rounds idx writes = .returned ret (writes ++ pieces) ∧
      pieces.flatten = (data.take size).drop idx ∧ ∀ piece ∈ pieces, (piece.length : ℤ) ≤ step := by
  induction rounds generalizing idx writes with
  | zero => omega
  | succ rounds ih =>
      by_cases hidx : idx < size
      · have hnext : (idx : ℤ) + step = ((idx + 2048 : ℕ) : ℤ) := by
          rw [step]
          omega
        have hroom : (idx : ℤ) + step < 2 ^ 31 := by
          rw [maxSendSize] at hsize
          rw [step]
          omega
        have hsend : (if step < left idx then step else toInt32 (left idx)).toNat =
            min 2048 (size - idx) := by
          rw [hleft idx hidx, step]
          split
          · omega
          · rw [toInt32_of_fits (by omega) (by omega)]
            omega
        obtain ⟨pieces, hloop, hflatten, hpieces⟩ := ih (idx + 2048)
          (writes ++ [(data.drop idx).take (min 2048 (size - idx))]) (by omega)
          (by rw [maxSendSize] at hsize; omega)
        refine ⟨(data.drop idx).take (min 2048 (size - idx)) :: pieces, ?_, ?_, ?_⟩
        · rw [sendLoop, if_pos ((hgoes idx hbound).mpr hidx), if_pos hroom, hsend,
            Int.toNat_natCast, hnext, hloop, List.append_assoc, List.singleton_append]
        · have hpiece : (data.drop idx).take (min 2048 (size - idx)) =
              ((data.take size).drop idx).take 2048 := by
            rw [List.drop_take, List.take_take]
          have hrest : (data.take size).drop (idx + 2048) =
              ((data.take size).drop idx).drop 2048 := by
            rw [List.drop_drop]
          rw [List.flatten_cons, hflatten, hpiece, hrest, List.take_append_drop]
        · intro piece hpiece
          rcases List.mem_cons.mp hpiece with rfl | hlater
          · rw [List.length_take, step]
            omega
          · exact hpieces piece hlater
      · refine ⟨[], ?_, ?_, List.forall_mem_nil _⟩
        · have hstops : ¬ goesOn idx = true := fun hgoesOn => hidx ((hgoes idx hbound).mp hgoesOn)
          rw [sendLoop, if_neg hstops, List.append_nil]
        · rw [List.flatten_nil, List.drop_eq_nil_of_le]
          exact (List.length_take_le _ _).trans (not_lt.mp hidx)

/-- A loop that goes on up to the bound steps over the end of `int`. -/
theorem sendLoop_overflows (hgoes : ∀ idx : ℕ, idx ≤ maxSendSize → goesOn idx = true)
    (rounds idx : ℕ) (hidx : idx ≤ maxSendSize) (haligned : 2048 ∣ idx) (writes : List Bytes) :
    ∀ ret' written, sendLoop goesOn left ret data rounds idx writes ≠ .returned ret' written := by
  induction rounds generalizing idx writes with
  | zero =>
      intro _ _ hreturned
      cases hreturned
  | succ rounds ih =>
      intro ret' written
      rw [sendLoop, if_pos (hgoes _ hidx)]
      dsimp only
      split
      · next hroom =>
          have hnext : (idx : ℤ) + step = ((idx + 2048 : ℕ) : ℤ) := by
            rw [step]
            omega
          rw [hnext]
          apply ih _ _ (Nat.dvd_add haligned (dvd_refl 2048))
          rw [step] at hroom
          rw [maxSendSize]
          omega
      · intro hreturned
        cases hreturned

theorem sendsAll_of_loop {size : ℕ} {sending : Sending} (hall : size = data.length)
    (hloop : ∃ pieces, sending = .returned ret ([] ++ pieces) ∧
      pieces.flatten = (data.take size).drop 0 ∧ ∀ piece ∈ pieces, (piece.length : ℤ) ≤ step) :
    SendsAll data sending := by
  obtain ⟨pieces, hsending, hflatten, hpieces⟩ := hloop
  refine ⟨ret, pieces, by rw [hsending, List.nil_append], ?_, hpieces⟩
  rw [hflatten, hall, List.take_length, List.drop_zero]

theorem sendVector_iff (data : Bytes) :
    SendsAll data (sendVector data) ↔ data.length ≤ maxSendSize := by
  constructor
  · rintro ⟨ret, writes, hsending, -⟩
    by_contra hlong
    have hgoes : ∀ idx : ℕ, idx ≤ maxSendSize →
        decide (toUInt64 (idx : ℤ) < data.length) = true := by
      intro idx hidx
      rw [toUInt64_of_fits (by rw [maxSendSize] at hidx; omega)]
      simpa using lt_of_le_of_lt hidx (not_le.mp hlong)
    exact sendLoop_overflows hgoes (data.length + 1) 0 (Nat.zero_le _) (dvd_zero _) [] ret writes
      hsending
  · intro hshort
    apply @sendsAll_of_loop _ _ data.length _ rfl
    apply sendLoop_complete _ _ hshort (data.length + 1) 0 [] (by omega) (Nat.zero_le _)
    · intro idx hidx
      rw [toUInt64_of_fits (by omega), decide_eq_true_eq]
    · intro idx hidx
      have hrest : ((data.length : ℤ) - idx) = ((data.length - idx : ℕ) : ℤ) := by omega
      rw [maxSendSize] at hshort
      rw [hrest, toUInt64_of_fits (by omega)]

theorem dataSize_eq (hfits : data.length < 2 ^ 31) : dataSize data = data.length := by
  rw [dataSize, toInt64_of_fits (by omega) (by omega), toInt32_of_fits (by omega) (by omega)]

theorem dataSize_lt (data : Bytes) : dataSize data < 2 ^ 31 := by
  rw [dataSize, toInt32]
  have hbound := Int.bmod_lt (x := toInt64 data.length) (m := 2 ^ 32) (by decide)
  norm_num at hbound ⊢
  exact hbound

/-- A stream whose size is a small `int` is written up to that size. -/
theorem sendStream_complete {size : ℕ} (hdata : dataSize data = size)
    (hfits : size ≤ data.length) (hshort : size ≤ maxSendSize) :
    ∃ pieces, sendStream data = .returned size ([] ++ pieces) ∧
      pieces.flatten = (data.take size).drop 0 ∧
      ∀ piece ∈ pieces, (piece.length : ℤ) ≤ step := by
  rw [sendStream, hdata]
  apply sendLoop_complete _ _ hshort (data.length + 1) 0 [] (by omega) (Nat.zero_le _)
  · intro idx _
    rw [decide_eq_true_eq, Nat.cast_lt]
  · intro idx _
    rfl

/-- A stream whose size is a large `int` makes the position overflow. -/
theorem sendStream_overflows (hlong : (maxSendSize : ℤ) < dataSize data) (ret : ℤ)
    (written : List Bytes) : sendStream data ≠ .returned ret written := by
  have hgoes : ∀ idx : ℕ, idx ≤ maxSendSize → decide ((idx : ℤ) < dataSize data) = true := by
    intro idx hidx
    rw [decide_eq_true_eq]
    exact lt_of_le_of_lt (Nat.cast_le.mpr hidx) hlong
  have hstarts := @sendLoop_overflows (fun idx => decide (idx < dataSize data))
    (fun idx => dataSize data - idx) (dataSize data) data hgoes (data.length + 1) 0
    (Nat.zero_le _) (dvd_zero _) [] ret written
  rw [Nat.cast_zero] at hstarts
  rw [sendStream]
  exact hstarts

/-- A stream whose size is a negative `int` is not written at all. -/
theorem sendStream_negative (hnegative : dataSize data ≤ 0) :
    sendStream data = .returned (dataSize data) [] := by
  have hstops : ¬ decide ((0 : ℤ) < dataSize data) = true := by simpa using hnegative
  rw [sendStream, sendLoop, if_neg hstops]

/-- What an `int` bounds is not all of a stream that is longer. -/
theorem not_sendsAll_of_wraps (hlong : 2 ^ 31 ≤ data.length) :
    ¬ SendsAll data (sendStream data) := by
  rintro ⟨ret, writes, hsending, hflatten, -⟩
  have hsmall := dataSize_lt data
  have hlength : data.length = writes.flatten.length := by rw [hflatten]
  rcases le_or_gt (dataSize data) 0 with hnegative | hpositive
  · rw [sendStream_negative hnegative] at hsending
    have hwrites := (Sending.returned.inj hsending).2
    rw [← hwrites, List.flatten_nil, List.length_nil] at hlength
    omega
  · obtain ⟨size, hsize⟩ := Int.eq_ofNat_of_zero_le hpositive.le
    rcases Nat.lt_or_ge maxSendSize size with hover | hshort
    · exact sendStream_overflows (by rw [hsize]; exact Nat.cast_lt.mpr hover) ret writes hsending
    · obtain ⟨pieces, hloop, hpieces, -⟩ := sendStream_complete hsize (by omega) hshort
      have hwrites := (Sending.returned.inj (hloop.symm.trans hsending)).2
      rw [← hwrites, List.nil_append, hpieces, List.drop_zero, List.length_take] at hlength
      omega

theorem sendStream_iff (data : Bytes) :
    SendsAll data (sendStream data) ↔ data.length ≤ maxSendSize := by
  constructor
  · intro hall
    rcases lt_or_ge data.length (2 ^ 31) with hfits | hhuge
    · by_contra hlong
      obtain ⟨ret, writes, hsending, -⟩ := hall
      have hover : (maxSendSize : ℤ) < dataSize data := by
        rw [dataSize_eq hfits]
        exact Nat.cast_lt.mpr (not_le.mp hlong)
      exact sendStream_overflows hover ret writes hsending
    · exact absurd hall (not_sendsAll_of_wraps hhuge)
  · intro hshort
    have hfits : data.length < 2 ^ 31 := by
      rw [maxSendSize] at hshort
      omega
    exact sendsAll_of_loop rfl (sendStream_complete (dataSize_eq hfits) (le_refl _) hshort)

/-- `pack` announces the size of the file. -/
theorem announcedSize_pack {headData body : Bytes} (hfits : body.length < 2 ^ 63) :
    announcedSize (pack headData body) = body.length := by
  obtain ⟨-, -, -, hbodySize⟩ := fields_of_append
    (length_encodeBE 8 (toUInt64 magicNumber))
    (length_encodeBE 4 version_01_00_00)
    (length_encodeBE 4 (toUInt32 (toInt32 headData.length)))
    (length_encodeBE 8 (toUInt64 (toInt64 (toUInt64 body.length))))
  rw [announcedSize, pack, hbodySize, int64_field hfits]

/-- Both parts of a response are sent, and the body has the size that its frame announces. -/
structure Complete (headData body : Bytes) : Prop where
  sendsHead : SendsAll headData (sendVector headData)
  sendsBody : SendsAll body (sendStream body)
  announces : ((sendStream body).written.length : ℤ) = announcedSize (pack headData body)

theorem SendsAll.written_eq {sending : Sending} (hall : SendsAll data sending) :
    sending.written = data := by
  obtain ⟨ret, writes, rfl, hflatten, -⟩ := hall
  exact hflatten

/-- A response is sent completely exactly when the loops end before the last `step` of `int`. -/
theorem complete_iff (headData body : Bytes) :
    Complete headData body ↔ headData.length ≤ maxSendSize ∧ body.length ≤ maxSendSize := by
  constructor
  · intro hcomplete
    exact ⟨(sendVector_iff headData).mp hcomplete.sendsHead,
      (sendStream_iff body).mp hcomplete.sendsBody⟩
  · rintro ⟨hhead, hbody⟩
    have hall : SendsAll body (sendStream body) := (sendStream_iff body).mpr hbody
    have hfits : body.length < 2 ^ 63 := by
      rw [maxSendSize] at hbody
      omega
    refine ⟨(sendVector_iff headData).mpr hhead, hall, ?_⟩
    rw [hall.written_eq, announcedSize_pack hfits]

/-- Of a body of two gibibytes nothing is sent, although the frame announces all of it. -/
theorem huge_body_is_not_sent :
    let body : Bytes := List.replicate (2 ^ 31) 0
    sendStream body = .returned (-2 ^ 31) [] ∧ announcedSize (pack [] body) = 2 ^ 31 ∧
      ¬ Complete [] body := by
  intro body
  have hlength : body.length = 2 ^ 31 := List.length_replicate
  have hsize : dataSize body = -2 ^ 31 := by
    rw [dataSize, hlength]
    decide
  have hsent : sendStream body = .returned (-2 ^ 31) [] := by
    rw [sendStream_negative (by rw [hsize]; decide), hsize]
  have hannounced : announcedSize (pack [] body) = 2 ^ 31 := by
    rw [announcedSize_pack (by rw [hlength]; decide), hlength]
    rfl
  refine ⟨hsent, hannounced, fun hcomplete => ?_⟩
  have hsizes := hcomplete.announces
  rw [hsent, hannounced] at hsizes
  cases hsizes

end Specifications

end FeedsService.Session
