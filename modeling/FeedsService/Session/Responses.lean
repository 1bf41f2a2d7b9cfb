import FeedsService.Session.Sending
import Mathlib.Data.List.Basic

/-!
# The responses on a session

What the listener of `makeUnpackedListener` sends for the results of the requests of a
session, and what a parser at the other end makes of it.
-/

namespace FeedsService.Session

open FeedsService.Library

/-- A call of `sendData`, `CHECK_RETVAL` of what it returns as an `int`, and what comes
after it. -/
def Sending.andThen : Sending → Sending → Sending
  | .returned ret writes, rest =>
      if toInt32 ret < 0 then .returned ret writes
      else
        match rest with
        | .returned ret' writes' => .returned ret' (writes ++ writes')
        | stopped => stopped
  | stopped, _ => stopped

/-- The sending of the body, where there is a file. -/
def sendBody : Option Bytes → Sending
  | some body => sendStream body
  | none => .returned 0 []

def sendResult (resultHeadData : Bytes) (resultBody : Option Bytes) : Sending :=
  let sessionProtocolData := pack resultHeadData (resultBody.getD [])
  (sendVector sessionProtocolData).andThen
    ((sendVector resultHeadData).andThen (sendBody resultBody))

theorem ret_of_sendLoop {goesOn : ℤ → Bool} {left : ℤ → ℤ} {ret ret' : ℤ} {data : Bytes}
    {rounds : ℕ} {idx : ℤ} {writes writes' : List Bytes}
    (h : sendLoop goesOn left ret data rounds idx writes = .returned ret' writes') :
    ret' = ret := by
  induction rounds generalizing idx writes with
  | zero => cases h
  | succ rounds ih =>
      rw [sendLoop] at h
      split at h
      · dsimp only at h
        split at h
        · exact ih h
        · cases h
      · cases h
        rfl

/-- After a vector that is sent completely the listener goes on. -/
theorem sendVector_andThen {data : Bytes} (hfits : data.length ≤ maxSendSize) {rest : Sending}
    {ret : ℤ} {writes : List Bytes} (hrest : rest = .returned ret writes) :
    ∃ sent, (sendVector data).andThen rest = .returned ret (sent ++ writes) ∧
      sent.flatten = data := by
  obtain ⟨ret', sent, hsent, hdata, -⟩ := (sendVector_iff data).mpr hfits
  have hret := ret_of_sendLoop hsent
  have hsmall : ¬ toInt32 ret' < 0 := by
    rw [maxSendSize] at hfits
    rw [hret, toInt64_of_fits (by omega) (by omega), toInt32_of_fits (by omega) (by omega)]
    exact not_lt.mpr (Int.natCast_nonneg _)
  refine ⟨sent, ?_, hdata⟩
  rw [hsent, hrest, Sending.andThen, if_neg hsmall]

theorem sendBody_sent {resultBody : Option Bytes}
    (hfits : (resultBody.getD []).length ≤ maxSendSize) :
    ∃ ret writes, sendBody resultBody = .returned ret writes ∧
      writes.flatten = resultBody.getD [] := by
  cases resultBody with
  | none => exact ⟨0, [], rfl, rfl⟩
  | some body =>
      obtain ⟨ret, writes, hsent, hdata, -⟩ := (sendStream_iff body).mpr hfits
      exact ⟨ret, writes, hsent, hdata⟩

/-- A result as its frame. -/
def resultFrame (result : Bytes × Option Bytes) : Frame :=
  ⟨result.1, result.2.getD []⟩

/-- A result whose parts can be sent is sent as its frame. -/
theorem sendResult_written {result : Bytes × Option Bytes} (hhead : result.1.length ≤ maxSendSize)
    (hbody : (result.2.getD []).length ≤ maxSendSize) :
    (sendResult result.1 result.2).written = (resultFrame result).bytes := by
  obtain ⟨head, body⟩ := result
  have hpack : (pack head (body.getD [])).length ≤ maxSendSize := by
    rw [length_pack]
    decide
  obtain ⟨ret, writes, hlast, hflatten⟩ := sendBody_sent hbody
  obtain ⟨headSent, hheadSent, hheadData⟩ := sendVector_andThen hhead hlast
  obtain ⟨infoSent, hinfoSent, hinfoData⟩ := sendVector_andThen hpack hheadSent
  rw [sendResult, hinfoSent, Sending.written, List.flatten_append, List.flatten_append, hinfoData,
    hheadData, hflatten]
  rfl

/-- However the carrier cuts what is sent on a session, a parser at the other end gives back the
results, each once, in order, and with its head and body. -/
theorem results_received {results : List (Bytes × Option Bytes)}
    (hfits : ∀ result ∈ results, result.1.length ≤ maxSendSize ∧
      (result.2.getD []).length ≤ maxSendSize)
    {chunks : List Bytes} (hchunks : ∀ chunk ∈ chunks, chunk.length < 2 ^ 31)
    (hcut : chunks.flatten =
      results.flatMap fun result => (sendResult result.1 result.2).written) :
    (unpackAll .init chunks).1.unpacked =
        results.map (fun result => (result.1, result.2.getD [])) ∧
      ∀ outcome ∈ (unpackAll .init chunks).2, outcome = .returned 0 := by
  have hbound : ∀ n, n ≤ maxSendSize → n < 2 ^ 31 := by
    intro n hn
    rw [maxSendSize] at hn
    omega
  have hformed : WellFormed (results.map fun result => ⟨[], resultFrame result⟩) := by
    intro piece hpiece
    obtain ⟨result, hresult, rfl⟩ := List.mem_map.mp hpiece
    obtain ⟨hhead, hbody⟩ := hfits result hresult
    refine ⟨⟨hbound _ hhead, hbound _ hbody⟩, fun position hposition => ?_⟩
    exact absurd hposition (Nat.not_lt_zero _)
  have hstream : (results.flatMap fun result => (sendResult result.1 result.2).written) =
      stream (results.map fun result => ⟨[], resultFrame result⟩) := by
    rw [stream, List.flatMap_map]
    refine List.flatMap_congr fun result hresult => ?_
    obtain ⟨hhead, hbody⟩ := hfits result hresult
    exact sendResult_written hhead hbody
  obtain ⟨hunpacked, houtcomes⟩ := unpackAll_stream _ hformed chunks (hcut.trans hstream) hchunks
  refine ⟨?_, houtcomes⟩
  rw [hunpacked, calls, List.map_map]
  rfl

/-- A result with a body and one without, cut inside the first magic number. -/
theorem results_received_cut :
    let results : List (Bytes × Option Bytes) := [([1, 2], some [3]), ([4], none)]
    let sent := results.flatMap fun result => (sendResult result.1 result.2).written
    (unpackAll .init [sent.take 5, sent.drop 5]).1.unpacked = [([1, 2], [3]), ([4], [])] ∧
      ∀ outcome ∈ (unpackAll .init [sent.take 5, sent.drop 5]).2, outcome = .returned 0 := by
  intro results sent
  have hlength : sent.length = 52 := by decide
  exact @results_received results (by decide) _ (by simp [hlength]) (by simp [sent])

end FeedsService.Session
