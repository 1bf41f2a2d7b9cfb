import FeedsService.Feeds.Statistics

/-!
# What strangers are told

A node whose requests carry no valid token.  Its requests change nothing and are
answered by an error code or the version of the service, and since only a token
enables notifications, nothing that others do is sent to it either, nor the number of
users when someone signs in.
-/

namespace FeedsService.Feeds

open FeedsService.Library FeedsService.Runs

/-- A message that is made from none of the data: an error code, or the version. -/
inductive Harmless : Msg → Prop
  | err (tsxId : UInt64) (ec : ℤ) (hcode : ec = Err.code .accessTokenExp ∨
      ec = Err.code .maxFeedsLimit) : Harmless (.err tsxId ec)
  | version (tsxId : UInt64) : Harmless (.resp tsxId .srvVer)

/-- The event is not a request of the node with a valid token. -/
def Event.Stranger (peer : NodeId) : Event → Prop
  | .request ctx _ => ctx.from = peer → ctx.uinfo = none
  | _ => True

section Requests

variable {w : World} {ctx : Ctx} {req : Req}

/-- Without a token no handler comes further than its first checks. -/
theorem handle_stranger (w : World) (req : Req) (huinfo : ctx.uinfo = none) :
    handle w ctx req = .ignored ∨ handle w ctx req = .failed .accessTokenExp ∨
      handle w ctx req = .failed .maxFeedsLimit ∨ handle w ctx req = .done ⟨w, [], [.srvVer]⟩ := by
  have hready : ∀ next : UserInfo → Outcome, ready ctx (withUinfo ctx next) = .ignored ∨
      ready ctx (withUinfo ctx next) = .failed .accessTokenExp := by
    intro next
    rw [withUinfo, huinfo, ready]
    split
    · exact Or.inr rfl
    · exact Or.inl rfl
  have hfirst : ∀ {outcome : Outcome}, (outcome = .ignored ∨ outcome = .failed .accessTokenExp) →
      outcome = .ignored ∨ outcome = .failed .accessTokenExp ∨
        outcome = .failed .maxFeedsLimit ∨ outcome = .done ⟨w, [], [.srvVer]⟩ :=
    fun h => h.imp_right Or.inl
  cases req with
  | createChan params =>
      rw [handle, hdlCreateChanReq, check]
      split
      · exact hfirst (hready _)
      · exact Or.inr (Or.inr (Or.inl rfl))
  | query query =>
      cases query with
      | getSrvVer => exact Or.inr (Or.inr (Or.inr rfl))
      | _ => exact hfirst (hready _)
  | _ => exact hfirst (hready _)

theorem respond_stranger (huinfo : ctx.uinfo = none) {out : Out}
    (hout : out ∈ (respond w ctx req).outs) :
    ∃ msg, out = .msgqEnq ctx.from msg ∧ Harmless msg := by
  rw [respond] at hout
  obtain heq | heq | heq | heq := handle_stranger w req huinfo
  · rw [heq] at hout
    exact absurd hout List.not_mem_nil
  · rw [heq] at hout
    exact ⟨_, List.mem_singleton.mp hout, .err _ _ (Or.inl rfl)⟩
  · rw [heq] at hout
    exact ⟨_, List.mem_singleton.mp hout, .err _ _ (Or.inr rfl)⟩
  · rw [heq] at hout
    exact ⟨_, List.mem_singleton.mp hout, .version _⟩

end Requests

section Notifications

variable {w : World} {enabled : UInt64 → NodeId → Prop} {ctx : Ctx} {req : Req} {carried : Done}

/-- The nodes of the owner have enabled the owner's notifications. -/
theorem Simulates.enabled_of_owner (h : Simulates w enabled) {peer : NodeId}
    (hpeer : peer ∈ w.mem.ownerDestinations) : enabled 1 peer := by
  rw [Mem.ownerDestinations] at hpeer
  split at hpeer
  · exact absurd hpeer List.not_mem_nil
  · rename_i as has
    obtain ⟨hmem, huid⟩ := h.notify.asGet_eq_some.mp has
    obtain ⟨link, hlink, heq⟩ := List.mem_map.mp hpeer
    exact (h.enabled_iff 1 peer).mpr ⟨as, hmem, huid, link, hlink, heq⟩

theorem Simulates.enabled_of_channel (h : Simulates w enabled) {id : UInt64} {chan : Ref}
    (hchan : w.mem.chanGetById id.toNat = some chan) {peer : NodeId}
    (hpeer : peer ∈ w.mem.destinations chan) : ∃ user, enabled user peer := by
  have hmirror := h.consistent.mirror
  obtain ⟨hmem, -, -⟩ := hmirror.mirrors.of_chanGetById hmirror.few hchan
  rw [destinations_eq, List.mem_map] at hpeer
  obtain ⟨⟨user, node⟩, hpair, rfl⟩ := hpeer
  exact ⟨user, ((h.mem_subscribedPairs hmem user node).mp hpair).2⟩

/-- The peers that a request which is about no channel sends notifications to: none, or the nodes
of the owner. -/
theorem ownerEvent_enqueued (hevent : req.channelEvent = none)
    (hdone : handle w ctx req = .done carried) :
    carried.outs.filterMap Out.enqueued = [] ∨
      ∃ msg, carried.outs.filterMap Out.enqueued =
          carried.world.mem.ownerDestinations.map fun peer => (peer, msg) := by
  cases req with
  | createChan params =>
      simp only [handle, hdlCreateChanReq, ready_eq_done, withOwner_eq_done, check_eq_done,
        dbCall_eq_done, Outcome.done.injEq] at hdone
      obtain ⟨_, _, _, _, db, _, rfl⟩ := hdone
      exact Or.inl rfl
  | declarePost chanId withNotify params =>
      cases withNotify with
      | true => cases hevent
      | false =>
          simp only [handle, hdlDeclarePostReq, ready_eq_done, withOwner_eq_done,
            withChan_eq_done, dbCall_eq_done, Outcome.done.injEq] at hdone
          obtain ⟨_, _, chan, _, db, _, rfl⟩ := hdone
          exact Or.inl rfl
  | postUnlike chanId postId cmtId =>
      simp only [handle, hdlPostUnlikeReq, ready_eq_done, withUinfo_eq_done,
        withChan_eq_done, check_eq_done, Outcome.done.injEq] at hdone
      obtain ⟨_, uinfo, _, chan, _, _, rfl⟩ := hdone
      exact Or.inl rfl
  | getPosts chanId qc =>
      simp only [handle, hdlGetPostsReq, ready_eq_done, withUinfo_eq_done,
        withChan_eq_done, dbCall_eq_done, Outcome.done.injEq] at hdone
      obtain ⟨_, uinfo, _, chan, _, pinfos, _, rfl⟩ := hdone
      refine Or.inl (List.filterMap_eq_nil_iff.mpr fun out hout => ?_)
      obtain ⟨pi, -, rfl⟩ := List.mem_map.mp hout
      rfl
  | getCmts chanId postId qc =>
      simp only [handle, hdlGetCmtsReq, ready_eq_done, withUinfo_eq_done,
        withPost_eq_done, dbCall_eq_done, Outcome.done.injEq] at hdone
      obtain ⟨_, uinfo, _, chan, _, _, cinfos, _, rfl⟩ := hdone
      refine Or.inl (List.filterMap_eq_nil_iff.mpr fun out hout => ?_)
      obtain ⟨ci, -, rfl⟩ := List.mem_map.mp hout
      rfl
  | subChan id proof =>
      simp only [handle, hdlSubChanReq, ready_eq_done, withUinfo_eq_done,
        withChan_eq_done, check_eq_done, dbCall_eq_done, Outcome.done.injEq] at hdone
      obtain ⟨_, uinfo, _, chan, _, _, db, _, rfl⟩ := hdone
      exact Or.inr ⟨.newSub _ uinfo, @enqueued_notifications [] rfl _ _⟩
  | unsubChan id =>
      simp only [handle, hdlUnsubChanReq, ready_eq_done, withUinfo_eq_done,
        withChan_eq_done, check_eq_done, Outcome.done.injEq] at hdone
      obtain ⟨_, uinfo, _, chan, _, _, rfl⟩ := hdone
      exact Or.inl rfl
  | enblNotif =>
      simp only [handle, hdlEnblNotifReq, ready_eq_done, withUinfo_eq_done,
        Outcome.done.injEq] at hdone
      obtain ⟨_, uinfo, _, rfl⟩ := hdone
      exact Or.inl rfl
  | updUserInfo params =>
      simp only [handle, hdlUpdUserInfoReq, ready_eq_done, withUinfo_eq_done,
        dbCall_eq_done, Outcome.done.injEq] at hdone
      obtain ⟨_, uinfo, _, db, _, rfl⟩ := hdone
      exact Or.inl rfl
  | reportIllegalCmt chanId postId cmtId reasons =>
      simp only [handle, hdlReportIllegalCmtReq, ready_eq_done, withUinfo_eq_done,
        withPost_eq_done, check_eq_done, Outcome.done.injEq] at hdone
      obtain ⟨_, uinfo, _, chan, _, _, _, _, rfl⟩ := hdone
      exact Or.inr ⟨.reportCmt _ _ _ uinfo, @enqueued_notifications [] rfl _ _⟩
  | query query =>
      rw [(handleQuery_eq_done hdone).2]
      exact Or.inl rfl
  | _ => cases hevent

/-- Notifications go to nodes that have enabled them. -/
theorem Simulates.enabled_of_notified (h : Simulates w enabled)
    (hdone : handle w ctx req = .done carried) {peer : NodeId} {msg : Msg}
    (hout : Out.msgqEnq peer msg ∈ carried.outs) : ∃ user, enabled user peer := by
  have henqueued : (peer, msg) ∈ carried.outs.filterMap Out.enqueued :=
    List.mem_filterMap.mpr ⟨_, hout, rfl⟩
  cases hevent : req.channelEvent with
  | some id =>
      obtain ⟨chan, opening, logs, notification, hchan, hopening, hlogs, houts⟩ :=
        channelEvent_enqueued h.consistent hevent hdone
      rw [houts, List.filterMap_append, hopening, enqueued_notifications hlogs, List.nil_append,
        List.mem_map] at henqueued
      obtain ⟨node, hnode, heq⟩ := henqueued
      exact (Prod.mk.inj heq).1 ▸ h.enabled_of_channel hchan hnode
  | none =>
      obtain hnone | ⟨notification, houts⟩ := ownerEvent_enqueued hevent hdone
      · rw [hnone] at henqueued
        exact absurd henqueued List.not_mem_nil
      · rw [houts, List.mem_map] at henqueued
        obtain ⟨node, hnode, heq⟩ := henqueued
        have hne : req ≠ .enblNotif := by
          rintro rfl
          simp only [handle, hdlEnblNotifReq, ready_eq_done, withUinfo_eq_done,
            Outcome.done.injEq] at hdone
          obtain ⟨_, uinfo, _, rfl⟩ := hdone
          simp at hout
        have hafter : Simulates carried.world enabled := h.effect hne (handle_effect hdone)
        exact (Prod.mk.inj heq).1 ▸ ⟨1, hafter.enabled_of_owner hnode⟩

end Notifications

section Runs

variable {peer : NodeId}

/-- Requests send the node nothing but error codes and the version, and sign-ins nothing. -/
def TellsNothing (peer : NodeId) (t : Tracked) (event : Event) (t' : Tracked) : Prop :=
  (∀ ctx req, event = .request ctx req →
    ∀ msg, Out.msgqEnq peer msg ∈ (respond t.world ctx req).outs → Harmless msg) ∧
  ∀ ui now rowid, event = .signIn ui now rowid →
    ∀ totalClients, (peer, totalClients) ∉ hdlStatsChangedNotify t'.world

/-- The node has no notifications enabled. -/
structure Unnotified (peer : NodeId) (t : Tracked) : Prop where
  simulates : Simulates t.world t.enabled
  disabled : ∀ user, ¬ t.enabled user peer

theorem Unnotified.track {t : Tracked} (h : Unnotified peer t) {event : Event}
    (hstranger : event.Stranger peer) : Unnotified peer (track t event) := by
  refine ⟨h.simulates.track event, fun user => ?_⟩
  cases event with
  | request ctx req =>
      rintro ⟨-, henabled | ⟨-, -, ⟨uinfo, huinfo, -⟩, hfrom⟩⟩
      · exact h.disabled user henabled
      · have hnone : ctx.uinfo = none := hstranger hfrom.symm
        rw [hnone] at huinfo
        cases huinfo
  | peerOffline nodeId => exact fun henabled => h.disabled user henabled.1
  | signIn ui now rowid => exact h.disabled user
  | restart => exact id

theorem Unnotified.answersHarmless {t : Tracked} (h : Unnotified peer t) {ctx : Ctx} {req : Req}
    (hstranger : (Event.request ctx req).Stranger peer) {msg : Msg}
    (hout : Out.msgqEnq peer msg ∈ (respond t.world ctx req).outs) : Harmless msg := by
  by_cases hfrom : ctx.from = peer
  · obtain ⟨harmless, heq, hharmless⟩ := respond_stranger (hstranger hfrom) hout
    cases heq
    exact hharmless
  · rw [respond] at hout
    cases houtcome : handle t.world ctx req with
    | ignored =>
        rw [houtcome] at hout
        exact absurd hout List.not_mem_nil
    | failed err =>
        rw [houtcome] at hout
        cases List.mem_singleton.mp hout
        exact absurd rfl hfrom
    | done carried =>
        rw [houtcome] at hout
        obtain hnotified | hreply := List.mem_append.mp hout
        · obtain ⟨user, henabled⟩ := h.simulates.enabled_of_notified houtcome hnotified
          exact absurd henabled (h.disabled user)
        · obtain ⟨resp, -, heq⟩ := List.mem_map.mp hreply
          cases heq
          exact absurd rfl hfrom

theorem Unnotified.tellsNothing {t : Tracked} (h : Unnotified peer t) {event : Event}
    (hstranger : event.Stranger peer) : TellsNothing peer t event (Feeds.track t event) := by
  constructor
  · rintro ctx req rfl msg hout
    exact h.answersHarmless hstranger hout
  · rintro ui now rowid rfl totalClients htold
    have hafter := h.track hstranger
    obtain ⟨user, henabled⟩ := hafter.simulates.enabled_of_told htold
    exact hafter.disabled user henabled

/-- Whatever the others do, a node that never shows a valid token is told nothing. -/
theorem tellsNothing_eachStep (events : List Event)
    (hstranger : ∀ event ∈ events, event.Stranger peer) :
    EachStep TrackedStep (TellsNothing peer) .init events := by
  have hadmitted : EachStep TrackedStep (fun _ event _ => event.Stranger peer) .init events :=
    eachStep_of_forall hstranger _
  have hstart : Unnotified peer .init :=
    ⟨Simulates.restart Consistent.init, fun _ henabled => henabled⟩
  refine eachStep_of_eachStep (fun t event t' h hstep hevent => ?_) hstart hadmitted
  obtain rfl : Feeds.track t event = t' := by simpa [Performs] using hstep
  exact ⟨h.track hevent, h.tellsNothing hevent⟩

/-- The owner writes, a reader signs in, and a stranger asks for the posts. -/
theorem tellsNothing_reader :
    let owner : UserInfo := ⟨1, "did", "name", "email", none, none⟩
    let ctx («from» : NodeId) (uinfo : Option UserInfo) : Ctx :=
      ⟨«from», 1, true, 5, uinfo, 1000, "did", 0⟩
    EachStep TrackedStep (TellsNothing "stranger") .init
      [.request (ctx "owner" (some owner)) (.createChan ⟨"name", "intro", [], "", ""⟩),
        .request (ctx "owner" (some owner)) (.pubPost 1 ⟨[1], [], "", "", ""⟩),
        .signIn ⟨0, "did:reader", "reader", "email", none, none⟩ 1001 2,
        .request (ctx "stranger" none) (.getPosts 1 ⟨.none, 0, 0, 0⟩)] :=
  tellsNothing_eachStep _ (by simp [Event.Stranger])

end Runs

end FeedsService.Feeds
