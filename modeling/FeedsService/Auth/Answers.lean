import FeedsService.Auth.System
import FeedsService.Library.Replies

/-!
# How the handlers of `did.c` and `auth.c` answer

Once the credential is issued every request but `import_did` is answered.  A confirmed
login whose user is not stored is not: the handler reads through a null pointer.
-/

namespace FeedsService.Auth

open FeedsService.Library FeedsService.Library.Replies FeedsService.Feeds

/-- What an answer puts into the queue of the sender; none when the service faults. -/
def Answer.replies : Answer → Option (List Reply)
  | .silent => some []
  | .err tsxId _ => some [⟨tsxId.toNat, .error⟩]
  | .declOwner tsxId _ _ _ => some [⟨tsxId.toNat, .last⟩]
  | .impDid tsxId _ _ => some [⟨tsxId.toNat, .last⟩]
  | .issVc tsxId => some [⟨tsxId.toNat, .last⟩]
  | .updateVc tsxId => some [⟨tsxId.toNat, .last⟩]
  | .signinReqChal tsxId _ _ _ => some [⟨tsxId.toNat, .last⟩]
  | .signinConfChal tsxId _ _ => some [⟨tsxId.toNat, .last⟩]
  | .nullUserInfo => none

/-- The sender gets one reply, to the request of this id. -/
def Answer.Replies (tsxId : UInt64) (answer : Answer) : Prop :=
  ∃ replies, answer.replies = some replies ∧ Answers tsxId.toNat replies

variable {host : Host} {m : Moment} {s : State} {tsxId : UInt64}

theorem Answer.Replies.error (ec : Err) : (Answer.err tsxId ec).Replies tsxId :=
  ⟨_, rfl, answers_of_marks .error⟩

theorem Answer.Replies.last {answer : Answer}
    (h : answer.replies = some [⟨tsxId.toNat, .last⟩]) : answer.Replies tsxId :=
  ⟨_, h, answers_of_marks terminal_last⟩

theorem Answer.not_replies_nullUserInfo : ¬ Answer.nullUserInfo.Replies tsxId := by
  rintro ⟨replies, h, _⟩
  cases h

section Binding

theorem declOwnerAnswer_replies (req : DeclOwnerReq) :
    (declOwnerAnswer s req).Replies req.tsxId := by
  rw [declOwnerAnswer]
  split
  · exact .last rfl
  · exact .last rfl
  · split
    · exact .error _
    · exact .last rfl
  · exact .last rfl

theorem hdlDeclOwnerReq_replies (req : DeclOwnerReq) :
    (hdlDeclOwnerReq m s req).2.Replies req.tsxId := by
  rw [hdlDeclOwnerReq]
  split
  · split
    · exact .error _
    · split
      · exact .error _
      · exact declOwnerAnswer_replies req
  · split
    · exact .error _
    · exact declOwnerAnswer_replies req

theorem hdlIssVcReq_replies (req : IssVcReq) :
    (hdlIssVcReq host m s req).2.Replies req.tsxId := by
  rw [hdlIssVcReq]
  split
  · exact .error _
  · exact .last rfl

theorem hdlUpdateVcReq_replies (hready : didIsReady s = true) (req : UpdateVcReq) :
    (hdlUpdateVcReq host m s req).2.Replies req.tsxId := by
  rw [hdlUpdateVcReq, if_neg (not_not.mpr hready)]
  split
  · exact .error _
  · split
    · exact .error _
    · split
      · exact .error _
      · exact .last rfl

end Binding

section SignIn

theorem hdlSigninReqChalReq_replies (hready : didIsReady s = true) (req : SigninReqChalReq) :
    (hdlSigninReqChalReq host m s req).2.Replies req.tsxId := by
  rw [hdlSigninReqChalReq, if_neg (not_not.mpr hready)]
  split
  · exact .error _
  · split
    · exact .error _
    · split
      · exact .error _
      · split
        · exact .error _
        · exact .last rfl

/-- The login that is confirmed is for a user who is not stored, although no credential
was asked for. -/
structure LacksUser (host : Host) (m : Moment) (s : State) (req : SigninConfChalReq) :
    Prop where
  parses : jwsParses host m req.jws = true
  login : ∃ login ∈ (chalRespIsValid host m s req.jws).2, login.vcReq = false ∧
    ∀ row ∈ s.db.users, row.did ≠ login.sub
  withoutCredential : req.vc = none
  read : m.dbReads = true

theorem signedInUser_eq_none_iff (login : Login) (chalResp : Jws)
    (vc : Option (Json Credential)) :
    (signedInUser host m s login chalResp vc).2 = .ok none ↔
      vc = none ∧ login.vcReq = false ∧ m.dbReads = true ∧
        ∀ row ∈ s.db.users, row.did ≠ login.sub := by
  cases vc with
  | none =>
      cases hvcReq : login.vcReq <;> cases hreads : m.dbReads <;>
        simp [signedInUser, dbGetUser, hvcReq, hreads]
  | some json =>
      cases json with
      | none => simp [signedInUser]
      | some vc =>
          simp only [signedInUser, reduceCtorEq, false_and, iff_false]
          repeat' split
          all_goals simp

theorem confirmLogin_replies_iff (req : SigninConfChalReq) (login : Login) :
    (confirmLogin host m s req login).2.Replies req.tsxId ↔
      ¬ (req.vc = none ∧ login.vcReq = false ∧ m.dbReads = true ∧
        ∀ row ∈ s.db.users, row.did ≠ login.sub) := by
  rw [← signedInUser_eq_none_iff login req.jws, confirmLogin]
  obtain ⟨s', uinfo⟩ := signedInUser host m s login req.jws req.vc
  rcases uinfo with ec | _ | uinfo
  · simpa using Answer.Replies.error ec
  · simpa using Answer.not_replies_nullUserInfo
  · simp only [Except.ok.injEq, reduceCtorEq, not_false_iff, iff_true]
    split
    · exact .error _
    · exact .last rfl

theorem hdlSigninConfChalReq_replies_iff (hready : didIsReady s = true)
    (req : SigninConfChalReq) :
    (hdlSigninConfChalReq host m s req).2.Replies req.tsxId ↔ ¬ LacksUser host m s req := by
  rw [hdlSigninConfChalReq, if_neg (not_not.mpr hready)]
  by_cases hparses : jwsParses host m req.jws = true
  · rw [if_neg (not_not.mpr hparses)]
    rcases hlogin : chalRespIsValid host m s req.jws with ⟨pendingLogins, login⟩
    cases login with
    | none =>
        have hnone : ¬ LacksUser host m s req := by
          rintro ⟨_, ⟨login, hmem, _⟩, _, _⟩
          rw [hlogin] at hmem
          cases hmem
        exact iff_of_true (.error _) hnone
    | some login =>
        rw [confirmLogin_replies_iff]
        apply not_congr
        constructor
        · rintro ⟨hvc, hvcReq, hreads, habsent⟩
          exact ⟨hparses, ⟨login, by rw [hlogin]; rfl, hvcReq, habsent⟩, hvc, hreads⟩
        · rintro ⟨_, ⟨found, hmem, hvcReq, habsent⟩, hvc, hreads⟩
          rw [hlogin] at hmem
          cases hmem
          exact ⟨hvc, hvcReq, hreads, habsent⟩
  · rw [if_pos hparses]
    exact iff_of_true (.error _) fun hlacks => hparses hlacks.parses

end SignIn

section Survival

theorem Answer.Replies.isSome {answer : Answer} (h : answer.Replies tsxId) :
    answer.replies.isSome = true := by
  obtain ⟨replies, hreplies, -⟩ := h
  rw [hreplies]
  rfl

theorem isSome_hdlDeclOwnerReq (req : DeclOwnerReq) :
    (hdlDeclOwnerReq m s req).2.replies.isSome = true :=
  (hdlDeclOwnerReq_replies req).isSome

theorem isSome_hdlImpDidReq (req : ImpDidReq) :
    (hdlImpDidReq s req).2.replies.isSome = true := by
  rw [hdlImpDidReq]
  split
  · rfl
  · split
    · rfl
    · split
      · rfl
      · dsimp only
        split
        · rfl
        · split
          · rfl
          · rfl

theorem isSome_hdlIssVcReq (req : IssVcReq) :
    (hdlIssVcReq host m s req).2.replies.isSome = true :=
  (hdlIssVcReq_replies req).isSome

theorem isSome_hdlUpdateVcReq (req : UpdateVcReq) :
    (hdlUpdateVcReq host m s req).2.replies.isSome = true := by
  by_cases hready : didIsReady s = true
  · exact (hdlUpdateVcReq_replies hready req).isSome
  · rw [hdlUpdateVcReq, if_pos hready]
    rfl

theorem isSome_hdlSigninReqChalReq (req : SigninReqChalReq) :
    (hdlSigninReqChalReq host m s req).2.replies.isSome = true := by
  by_cases hready : didIsReady s = true
  · exact (hdlSigninReqChalReq_replies hready req).isSome
  · rw [hdlSigninReqChalReq, if_pos hready]
    rfl

theorem confirmLogin_isSome_iff (req : SigninConfChalReq) (login : Login) :
    (confirmLogin host m s req login).2.replies.isSome = true ↔
      (confirmLogin host m s req login).2.Replies req.tsxId := by
  refine ⟨fun hsome => ?_, Answer.Replies.isSome⟩
  unfold confirmLogin at hsome ⊢
  generalize signedInUser host m s login req.jws req.vc = result at hsome ⊢
  rcases result with ⟨s', ec | _ | uinfo⟩
  · exact .error ec
  · cases hsome
  · dsimp only
    split
    · exact .error _
    · exact .last rfl

/-- A response ends the service when the login that it confirms is for a user who is not
stored. -/
theorem isSome_hdlSigninConfChalReq_iff (req : SigninConfChalReq) :
    (hdlSigninConfChalReq host m s req).2.replies.isSome = true ↔
      (didIsReady s = true → ¬ LacksUser host m s req) := by
  by_cases hready : didIsReady s = true
  · rw [forall_prop_of_true hready, ← hdlSigninConfChalReq_replies_iff hready]
    refine ⟨fun hsome => ?_, Answer.Replies.isSome⟩
    rw [hdlSigninConfChalReq, if_neg (not_not.mpr hready)] at hsome ⊢
    split
    · exact .error _
    · next hparses =>
        rw [if_neg hparses] at hsome
        split
        · exact .error _
        · next hvalid =>
            rw [hvalid] at hsome
            exact (confirmLogin_isSome_iff req _).mp hsome
  · rw [hdlSigninConfChalReq, if_pos hready]
    exact iff_of_true rfl fun h => absurd h hready

end Survival

end FeedsService.Auth
