import FeedsService.Feeds.References

/-!
# The times of the rows

`created_at` and `updated_at` are wall-clock times.  Where the clock does not go
back, no row is older than what it refers to, and none was updated before it was
created.
-/

namespace FeedsService.Feeds

open FeedsService.Library FeedsService.Runs

/-- Creation and last update of every row that has both. -/
def Db.spans (db : Db) : List (ℤ × ℤ) :=
  db.channels.map (fun row => (row.createdAt, row.updatedAt)) ++
    db.posts.map (fun row => (row.createdAt, row.updatedAt)) ++
    db.comments.map fun row => (row.createdAt, row.updatedAt)

/-- A row that is as it was, is new, or has been updated now. -/
def Recent (db : Db) (now : ℤ) (span : ℤ × ℤ) : Prop :=
  span ∈ db.spans ∨ span.2 = now ∧ (span.1 = now ∨ ∃ old ∈ db.spans, old.1 = span.1)

structure Spanned (db : Db) (now : ℤ) (db' : Db) : Prop where
  channels : ∀ row ∈ db'.channels, Recent db now (row.createdAt, row.updatedAt)
  posts : ∀ row ∈ db'.posts, Recent db now (row.createdAt, row.updatedAt)
  comments : ∀ row ∈ db'.comments, Recent db now (row.createdAt, row.updatedAt)

namespace Spanned

variable {db db' : Db} {now : ℤ}

theorem channel_mem {row : ChannelRow} (hrow : row ∈ db.channels) :
    (row.createdAt, row.updatedAt) ∈ db.spans :=
  List.mem_append_left _ (List.mem_append_left _ (List.mem_map.mpr ⟨row, hrow, rfl⟩))

theorem post_mem {row : PostRow} (hrow : row ∈ db.posts) :
    (row.createdAt, row.updatedAt) ∈ db.spans :=
  List.mem_append_left _ (List.mem_append_right _ (List.mem_map.mpr ⟨row, hrow, rfl⟩))

theorem comment_mem {row : CommentRow} (hrow : row ∈ db.comments) :
    (row.createdAt, row.updatedAt) ∈ db.spans :=
  List.mem_append_right _ (List.mem_map.mpr ⟨row, hrow, rfl⟩)

theorem refl (db : Db) (now : ℤ) : Spanned db now db where
  channels _ hrow := Or.inl (channel_mem hrow)
  posts _ hrow := Or.inl (post_mem hrow)
  comments _ hrow := Or.inl (comment_mem hrow)

theorem recent (h : Spanned db now db') {span : ℤ × ℤ} (hspan : span ∈ db'.spans) :
    Recent db now span := by
  obtain hspan | hspan := List.mem_append.mp hspan
  · obtain hspan | hspan := List.mem_append.mp hspan
    · obtain ⟨row, hrow, rfl⟩ := List.mem_map.mp hspan
      exact h.channels row hrow
    · obtain ⟨row, hrow, rfl⟩ := List.mem_map.mp hspan
      exact h.posts row hrow
  · obtain ⟨row, hrow, rfl⟩ := List.mem_map.mp hspan
    exact h.comments row hrow

theorem updLikes (h : Spanned db now db') (channelId postId commentId change : ℤ) :
    Spanned db now (updLikes db' channelId postId commentId change) := by
  unfold Feeds.updLikes
  split
  · exact { h with comments := forall_updateWhere h.comments fun _ _ _ hrow => hrow }
  · exact { h with posts := forall_updateWhere h.posts fun _ _ _ hrow => hrow }

theorem withLikes (h : Spanned db now db') (likes : List LikeRow) :
    Spanned db now { db' with likes := likes } :=
  { h with }

end Spanned

variable {w : World} {ctx : Ctx} {req : Req} {db db' : Db} {now last : ℤ}

/-- Whatever a request writes, it dates with the time of the request. -/
theorem Writes.spanned (h : Writes w ctx req db') : Spanned w.db ctx.now db' := by
  have hold := Spanned.refl w.db ctx.now
  cases h with
  | nothing | updUser | report => exact { hold with }
  | addChannel hcreatedAt =>
      refine { hold with channels := List.forall_mem_append.mpr ⟨hold.channels, ?_⟩ }
      intro row hrow
      rw [List.mem_singleton.mp hrow]
      exact Or.inr ⟨hcreatedAt, Or.inl hcreatedAt⟩
  | updChannel hupdAt =>
      refine { hold with channels := forall_updateWhere hold.channels ?_ }
      intro row hrow _ _
      exact Or.inr ⟨hupdAt, Or.inr ⟨_, Spanned.channel_mem hrow, rfl⟩⟩
  | addPost hchan hchanId hpostId hcreatedAt =>
      refine
        { hold with
          channels := forall_updateWhere hold.channels fun _ _ _ hrow => hrow
          posts := List.forall_mem_append.mpr ⟨hold.posts, fun row hrow => ?_⟩ }
      rw [List.mem_singleton.mp hrow]
      exact Or.inr ⟨hcreatedAt, Or.inl hcreatedAt⟩
  | setPostStatus =>
      exact { hold with posts := forall_updateWhere hold.posts fun _ _ _ hrow => hrow }
  | updPost hupdAt =>
      refine { hold with posts := forall_updateWhere hold.posts ?_ }
      intro row hrow _ _
      exact Or.inr ⟨hupdAt, Or.inr ⟨_, Spanned.post_mem hrow, rfl⟩⟩
  | addCmt hreq huinfo hpost hat hok hci huser hreply hcreatedAt =>
      refine
        { hold with
          posts := forall_updateWhere hold.posts fun _ _ _ hrow => hrow
          comments := List.forall_mem_append.mpr ⟨hold.comments, fun row hrow => ?_⟩ }
      rw [List.mem_singleton.mp hrow]
      exact Or.inr ⟨hcreatedAt, Or.inl hcreatedAt⟩
  | updCmt hreq hci hfound hok hreply hupdAt =>
      refine { hold with comments := forall_updateWhere hold.comments ?_ }
      intro row hrow _ _
      exact Or.inr ⟨hupdAt, Or.inr ⟨_, Spanned.comment_mem hrow, rfl⟩⟩
  | setCmtStatus hupdAt =>
      refine { hold with comments := forall_updateWhere hold.comments ?_ }
      intro row hrow _ _
      exact Or.inr ⟨hupdAt, Or.inr ⟨_, Spanned.comment_mem hrow, rfl⟩⟩
  | addLike huinfo hselect => exact (hold.updLikes _ _ _ 1).withLikes _
  | rmLike => exact (hold.updLikes _ _ _ (-1)).withLikes _
  | addSub huinfo hchan =>
      exact { hold with channels := forall_updateWhere hold.channels fun _ _ _ hrow => hrow }
  | rmSub =>
      exact { hold with channels := forall_updateWhere hold.channels fun _ _ _ hrow => hrow }

/-- No row is older than what it refers to, and none was updated before it was
created. -/
structure TimesInOrder (db : Db) : Prop where
  spans : ∀ span ∈ db.spans, span.1 ≤ span.2
  references : ∀ entity ∈ db.entities, ∀ reference ∈ db.references,
    entity.1 = reference.1 → entity.2 ≤ reference.2

/-- The same, with no time that is still to come. -/
structure Timed (last : ℤ) (db : Db) : Prop where
  spans : ∀ span ∈ db.spans, span.1 ≤ span.2 ∧ span.2 ≤ last
  entities : ∀ entity ∈ db.entities, entity.2 ≤ last
  references : ∀ entity ∈ db.entities, ∀ reference ∈ db.references,
    entity.1 = reference.1 → entity.2 ≤ reference.2

theorem Timed.init (last : ℤ) : Timed last Db.init where
  spans _ h := absurd h List.not_mem_nil
  entities _ h := absurd h List.not_mem_nil
  references _ h := absurd h List.not_mem_nil

theorem Timed.mono (h : Timed last db) (hle : last ≤ now) : Timed now db where
  spans span hspan := ⟨(h.spans span hspan).1, (h.spans span hspan).2.trans hle⟩
  entities entity hentity := (h.entities entity hentity).trans hle
  references := h.references

/-- One step at a later time. -/
theorem Timed.extends (h : Timed last db) (hle : last ≤ now) (hreferenced : Referenced db)
    (hextends : Extends db now db') (hspanned : Spanned db now db') : Timed now db' := by
  obtain ⟨new, hperm, hnew⟩ := hextends.entities
  have hentity : ∀ entity ∈ db'.entities, entity ∈ db.entities ∨ entity ∈ new := by
    intro entity hentity
    exact List.mem_append.mp (hperm.mem_iff.mp hentity)
  refine ⟨?_, ?_, ?_⟩
  · intro span hspan
    obtain hold | ⟨hnow, hcreated | ⟨old, hold, heq⟩⟩ := hspanned.recent hspan
    · exact (h.mono hle).spans span hold
    · exact ⟨(hcreated.trans hnow.symm).le, hnow.le⟩
    · have hspan := h.spans old hold
      rw [← heq, hnow]
      exact ⟨by omega, le_rfl⟩
  · intro entity hmem
    obtain hold | hadded := hentity entity hmem
    · exact (h.entities entity hold).trans hle
    · exact (hnew entity hadded).2.le
  · intro entity hmem reference href heq
    obtain hknown | ⟨hhas, hnow⟩ := hextends.references reference href
    · obtain hold | hadded := hentity entity hmem
      · exact h.references entity hold reference hknown heq
      · exact absurd (heq ▸ hreferenced reference hknown) (hnew entity hadded).1
    · rw [hnow]
      obtain hold | hadded := hentity entity hmem
      · exact (h.entities entity hold).trans hle
      · exact (hnew entity hadded).2.le

theorem Stored.spanned (w : World) (event : Event)
    (hnow : ∀ time, event.time = some time → time = now) :
    Spanned w.db now (Feeds.step w event).db := by
  cases event with
  | request ctx req =>
      have htime : ctx.now = now := hnow _ rfl
      exact htime ▸ (step_writes w ctx req).spanned
  | peerOffline nodeId => exact .refl _ _
  | signIn ui time rowid =>
      obtain ⟨users, hdb⟩ := dbUpsertUser_users w.db ui time rowid
      rw [Feeds.step, hdb]
      exact { Spanned.refl w.db now with }
  | restart => exact .refl _ _

theorem Timed.perform (events : List Event) (hw : Stored w) (h : Timed last w.db)
    (hlast : ∀ time ∈ events.filterMap Event.time, last ≤ time)
    (hclock : (events.filterMap Event.time).Pairwise (· ≤ ·)) :
    ∃ last, Timed last (perform w events).db := by
  induction events generalizing w last with
  | nil => exact ⟨last, h⟩
  | cons event events ih =>
      have hstep : ∀ now, last ≤ now → (∀ time, event.time = some time → time = now) →
          Timed now (Feeds.step w event).db := fun now hle hnow =>
        h.extends hle hw.referenced (hw.extends event _ hnow) (Stored.spanned w event hnow)
      cases htime : event.time with
      | none =>
          rw [List.filterMap_cons_none htime] at hlast hclock
          have hnone : ∀ time, event.time = some time → time = last := by
            intro time hsome
            rw [htime] at hsome
            cases hsome
          exact ih (hw.step event) (hstep last le_rfl hnone) hlast hclock
      | some now =>
          rw [List.filterMap_cons_some htime] at hlast hclock
          rw [List.pairwise_cons] at hclock
          have hnow : ∀ time, event.time = some time → time = now := by
            intro time hsome
            exact (Option.some.inj (htime.symm.trans hsome)).symm
          exact ih (hw.step event) (hstep now (hlast now List.mem_cons_self) hnow) hclock.1 hclock.2

/-- In a run whose clock does not go back, the times are in order. -/
theorem timesInOrder_perform (events : List Event)
    (hclock : (events.filterMap Event.time).Pairwise (· ≤ ·)) :
    TimesInOrder (perform (.start Db.init) events).db := by
  obtain ⟨first, hfirst⟩ : ∃ first, ∀ time ∈ events.filterMap Event.time, first ≤ time := by
    cases htimes : events.filterMap Event.time with
    | nil => exact ⟨0, fun _ h => absurd h List.not_mem_nil⟩
    | cons first times =>
        rw [htimes, List.pairwise_cons] at hclock
        refine ⟨first, fun time htime => ?_⟩
        obtain rfl | htime := List.mem_cons.mp htime
        · exact le_rfl
        · exact hclock.1 time htime
  obtain ⟨last, h⟩ := Timed.perform events Stored.init (Timed.init first) hfirst hclock
  exact ⟨fun span hspan => (h.spans span hspan).1, h.references⟩

/-- A channel, a post and a post that is edited. -/
theorem timesInOrder_edited :
    let owner : UserInfo := ⟨1, "did", "name", "email", none, none⟩
    let ctx (now : ℤ) : Ctx := ⟨"node", 1, true, now, some owner, 1000, "did", 0⟩
    TimesInOrder (perform (.start Db.init)
      [.signIn owner 3 1, .request (ctx 5) (.createChan ⟨"name", "intro", [], "", ""⟩),
        .request (ctx 5) (.pubPost 1 ⟨[1], [], "", "", ""⟩), .restart,
        .request (ctx 9) (.editPost 1 1 ⟨[2], [], "", "", ""⟩)]).db :=
  timesInOrder_perform _ (by decide)

end FeedsService.Feeds
