import FeedsService.Sql.Preservation

/-!
# What the tables refer to after `db_init`

A table that is renamed is renamed in the tables that refer to it.  The one that is made in
its place has the old name, to which a table refers that is made after, but not one that was
there before.
-/

namespace FeedsService.Sql

open FeedsService.Library FeedsService.Library.Transactions FeedsService.Library.Catalogs
open FeedsService.Library.Catalogs.Catalog

section Renames

variable {faults : Faults} {spec : TableSpec} {c c' : Catalog} {name target : String}
  {specs : List TableSpec}

/-- The table has fewer columns than it should have. -/
def Older (name : String) (schema : Schema) (c : Catalog) : Prop :=
  ∃ table, c.tables name = some table ∧ table.schema.columns.length < schema.columns.length

/-- The table has all the columns that it should have. -/
def Newest (name : String) (schema : Schema) (c : Catalog) : Prop :=
  ∃ table, c.tables name = some table ∧ schema.columns.length ≤ table.schema.columns.length

/-- A table of which there is an old version has no more columns than it should have. -/
def NotWider (spec : TableSpec) (c : Catalog) : Prop :=
  spec.migration.isSome = true → ∀ table, c.tables spec.name = some table →
    table.schema.columns.length ≤ spec.schema.columns.length

theorem Newest.not_older {schema : Schema} (h : Newest name schema c) :
    ¬ Older name schema c := by
  obtain ⟨newest, hnewest, hle⟩ := h
  rintro ⟨older, holder, hlt⟩
  cases hnewest.symm.trans holder
  exact absurd hle (Nat.not_le_of_lt hlt)

theorem Unmoved.older_iff (h : Unmoved spec c c') :
    Older spec.name spec.schema c' ↔ Older spec.name spec.schema c := by
  rw [Older, Older, h.table]

theorem Unmoved.newest_iff (h : Unmoved spec c c') :
    Newest spec.name spec.schema c' ↔ Newest spec.name spec.schema c := by
  rw [Newest, Newest, h.table]

theorem Unmoved.notWider (h : Unmoved spec c c') (hwider : NotWider spec c) :
    NotWider spec c' := by
  rw [NotWider, h.table]
  exact hwider

/-- What a turn for one table does to another that is there. -/
inductive Renames (spec : TableSpec) (c c' : Catalog) (name : String) : Prop
  | same (holder : ¬ Older spec.name spec.schema c) (htable : c'.tables name = c.tables name)
      (hreferences : c'.references name = c.references name)
  | renamed {backup : String} (holder : Older spec.name spec.schema c)
      (hbackup : backup ∈ spec.names) (hne : spec.name ≠ backup)
      (htable : c'.tables name = c.tables name)
      (hreferences : c'.references name = (c.references name).map (.rename spec.name backup))

theorem Renames.table (h : Renames spec c c' name) : c'.tables name = c.tables name := by
  cases h with
  | same _ htable _ => exact htable
  | renamed _ _ _ htable _ => exact htable

theorem Turn.renames {table : Table} (h : Turn faults spec c c') (hsteps : Steps faults)
    (hwider : NotWider spec c) (htable : c.tables name = some table)
    (hname : spec.name = name → Newest spec.name spec.schema c) : Renames spec c c' name := by
  cases h with
  | newest hfound hwide => exact .same (Newest.not_older ⟨_, hfound, hwide⟩) rfl rfl
  | made hmissing _ hreferences _ hsame =>
      have hne : name ≠ spec.name := by
        rintro rfl
        cases hmissing.symm.trans htable
      refine .same ?_ (hsame.tables name (mt List.mem_singleton.mp hne)) ?_
      · rintro ⟨older, holder, -⟩
        cases hmissing.symm.trans holder
      · rw [hreferences, Function.update_of_ne hne]
  | @updated _ m before _ hm hbefore hfree _ hcolumns _ _ hrenamed _ hsame =>
      have hle := hwider (by rw [hm]; rfl) before hbefore
      have holder : Older spec.name spec.schema c :=
        ⟨before, hbefore, lt_of_le_of_ne hle (hcolumns hsteps)⟩
      have hother : name ∉ spec.names :=
        not_mem_names hm hfree htable fun hsame => (hname hsame).not_older holder
      refine .renamed holder ?_ (spec.renamed m hm) (hsame.tables name hother)
        (hrenamed name hother)
      rw [names_eq hm]
      exact List.mem_cons_of_mem _ List.mem_cons_self

/-- The table is there, and none of the turns to come brings it up to date. -/
structure Stands (specs : List TableSpec) (name : String) (c : Catalog) : Prop where
  found : ∃ table, c.tables name = some table
  newest : ∀ spec ∈ specs, spec.name = name → Newest spec.name spec.schema c
  notWider : ∀ spec ∈ specs, NotWider spec c
  apart : specs.Pairwise fun spec other => Apart spec other ∧ Apart other spec

theorem Stands.renames (h : Stands (spec :: specs) name c) (hturn : Turn faults spec c c')
    (hsteps : Steps faults) : Renames spec c c' name := by
  obtain ⟨table, htable⟩ := h.found
  exact hturn.renames hsteps (h.notWider spec List.mem_cons_self) htable
    (h.newest spec List.mem_cons_self)

/-- The turns for the others find their tables as they were. -/
theorem unmoved_of_apart (hturn : Turn faults spec c c')
    (hapart : (spec :: specs).Pairwise fun spec other => Apart spec other ∧ Apart other spec) :
    ∀ other ∈ specs, Unmoved other c c' := fun other hother =>
  hturn.unmoved ((List.pairwise_cons.mp hapart).1 other hother).2

theorem Stands.tail (h : Stands (spec :: specs) name c) (hturn : Turn faults spec c c')
    (hsteps : Steps faults) : Stands specs name c' := by
  have hunmoved := unmoved_of_apart hturn h.apart
  constructor
  · rw [(h.renames hturn hsteps).table]
    exact h.found
  · intro other hother hname
    exact (hunmoved other hother).newest_iff.mpr
      (h.newest other (List.mem_cons_of_mem _ hother) hname)
  · intro other hother
    exact (hunmoved other hother).notWider (h.notWider other (List.mem_cons_of_mem _ hother))
  · exact (List.pairwise_cons.mp h.apart).2

/-- What is not referred to is not referred to later, if nothing is renamed to it. -/
theorem not_refers_of_turns (hturns : Turns faults c specs c') (hsteps : Steps faults)
    (hstands : Stands specs name c) (htarget : ∀ spec ∈ specs, target ∉ spec.names)
    (hrefers : ∀ reference ∈ c.references name, reference.table ≠ target) :
    ∀ reference ∈ c'.references name, reference.table ≠ target := by
  induction hturns with
  | nil _ => exact hrefers
  | cons hturn _ ih =>
      apply ih (hstands.tail hturn hsteps) fun spec hspec =>
        htarget spec (List.mem_cons_of_mem _ hspec)
      cases hstands.renames hturn hsteps with
      | same _ _ hreferences =>
          rw [hreferences]
          exact hrefers
      | renamed _ hbackup _ _ hreferences =>
          rw [hreferences]
          refine List.forall_mem_map.mpr fun reference hreference => ?_
          refine Reference.table_rename_ne_of_ne (hrefers reference hreference) ?_
          rintro rfl
          exact htarget _ List.mem_cons_self hbackup

/-- A table refers to what it referred to if that is not renamed, and only then. -/
theorem references_of_turns (hturns : Turns faults c specs c') (hsteps : Steps faults)
    (hstands : Stands specs name c) :
    c'.references name = c.references name ↔ ∀ spec ∈ specs, Older spec.name spec.schema c →
      ∀ reference ∈ c.references name, reference.table ≠ spec.name := by
  induction hturns with
  | nil _ => exact iff_of_true rfl (List.forall_mem_nil _)
  | @cons c c₁ c' spec specs hturn hrest ih =>
      have hstands' := hstands.tail hturn hsteps
      have hunmoved := unmoved_of_apart hturn hstands.apart
      -- the other tables are as old after the turn as before
      have htail : (∀ other ∈ specs, Older other.name other.schema c₁ →
            ∀ reference ∈ c.references name, reference.table ≠ other.name) ↔
          ∀ other ∈ specs, Older other.name other.schema c →
            ∀ reference ∈ c.references name, reference.table ≠ other.name :=
        forall₂_congr fun other hother => by rw [(hunmoved other hother).older_iff]
      rw [List.forall_mem_cons]
      cases hstands.renames hturn hsteps with
      | same holder _ hreferences =>
          have hhead := ih hstands'
          rw [hreferences, htail] at hhead
          rw [hhead]
          exact (and_iff_right fun hsome => absurd hsome holder).symm
      | @renamed backup holder hbackup hne _ hreferences =>
          by_cases hrefers : ∀ reference ∈ c.references name, reference.table ≠ spec.name
          · have hhead := ih hstands'
            rw [hreferences, Reference.map_rename_of_ne hrefers, htail] at hhead
            rw [hhead]
            exact (and_iff_right fun _ => hrefers).symm
          · -- nothing is called what the table was called before
            have hgone : ∀ reference ∈ c'.references name, reference.table ≠ spec.name := by
              apply not_refers_of_turns hrest hsteps hstands' fun other hother =>
                ((List.pairwise_cons.mp hstands.apart).1 other hother).1.1
              rw [hreferences]
              exact List.forall_mem_map.mpr fun reference _ =>
                Reference.table_rename_ne hne reference
            refine iff_of_false ?_ fun hnone => hrefers (hnone.1 holder)
            intro hsame
            exact hrefers (hsame ▸ hgone)

/-- After its own turn a table refers to what it should, until that is renamed. -/
theorem Turn.references_iff {after : List TableSpec} {c₁ : Catalog}
    (hturn : Turn faults spec c c₁) (hturns : Turns faults c₁ after c') (hsteps : Steps faults)
    (hapart : (spec :: after).Pairwise fun spec other => Apart spec other ∧ Apart other spec)
    (hwider : ∀ other ∈ after, NotWider other c) (hnewest : ¬ Newest spec.name spec.schema c) :
    c'.references spec.name = spec.references ↔ ∀ other ∈ after,
      Older other.name other.schema c →
        ∀ reference ∈ spec.references, reference.table ≠ other.name := by
  have hunmoved := unmoved_of_apart hturn hapart
  obtain ⟨⟨table, htable⟩, hreferences⟩ : (∃ table, c₁.tables spec.name = some table) ∧
      c₁.references spec.name = spec.references := by
    refine ⟨hturn.outcome.found, ?_⟩
    cases hturn with
    | newest hfound hwide => exact absurd ⟨_, hfound, hwide⟩ hnewest
    | made _ _ hreferences _ _ => rw [hreferences, Function.update_self]
    | updated _ _ _ _ _ _ hreferences _ _ _ => exact hreferences
  have hstands : Stands after spec.name c₁ := by
    constructor
    · exact ⟨table, htable⟩
    · intro other hother hname
      have hother' := ((List.pairwise_cons.mp hapart).1 other hother).2.1
      exact absurd (hname ▸ List.mem_cons_self) hother'
    · exact fun other hother => (hunmoved other hother).notWider (hwider other hother)
    · exact (List.pairwise_cons.mp hapart).2
  have hlater := references_of_turns hturns hsteps hstands
  rw [hreferences] at hlater
  rw [hlater]
  exact forall₂_congr fun other hother => by rw [(hunmoved other hother).older_iff]

/-- What a table refers to in the end, if it refers to what it should while it is new. -/
theorem references_iff_of_turns {before after : List TableSpec}
    (hturns : Turns faults c (before ++ spec :: after) c') (hsteps : Steps faults)
    (hapart : (before ++ spec :: after).Pairwise fun spec other =>
      Apart spec other ∧ Apart other spec)
    (hwider : ∀ other ∈ before ++ spec :: after, NotWider other c)
    (hreferences : Newest spec.name spec.schema c → c.references spec.name = spec.references) :
    c'.references spec.name = spec.references ↔
      (∀ other ∈ after, Older other.name other.schema c →
        ∀ reference ∈ spec.references, reference.table ≠ other.name) ∧
      (Newest spec.name spec.schema c → ∀ other ∈ before, Older other.name other.schema c →
        ∀ reference ∈ spec.references, reference.table ≠ other.name) := by
  by_cases hnewest : Newest spec.name spec.schema c
  · obtain ⟨hbefore, hafter, hacross⟩ := List.pairwise_append.mp hapart
    obtain ⟨hspec, -⟩ := List.pairwise_cons.mp hafter
    have hstands : Stands (before ++ spec :: after) spec.name c := by
      refine ⟨hnewest.imp fun _ h => h.1, ?_, hwider, hapart⟩
      intro other hother hname
      rcases List.mem_append.mp hother with hmem | hmem
      · have hother' := (hacross other hmem spec List.mem_cons_self).1.1
        exact absurd (hname ▸ List.mem_cons_self) hother'
      · rcases List.mem_cons.mp hmem with rfl | hmem
        · exact hnewest
        · have hother' := (hspec other hmem).2.1
          exact absurd (hname ▸ List.mem_cons_self) hother'
    have hlater := references_of_turns hturns hsteps hstands
    rw [hreferences hnewest, List.forall_mem_append, List.forall_mem_cons] at hlater
    rw [hlater]
    constructor
    · exact fun ⟨hfirst, _, hlast⟩ => ⟨hlast, fun _ => hfirst⟩
    · exact fun ⟨hlast, hfirst⟩ =>
        ⟨hfirst hnewest, fun holder => absurd holder hnewest.not_older, hlast⟩
  · rw [and_iff_left fun hsome => absurd hsome hnewest]
    induction before generalizing c with
    | nil =>
        cases hturns with
        | cons hturn hrest =>
            exact hturn.references_iff hrest hsteps hapart
              (fun other hother => hwider other (List.mem_cons_of_mem _ hother)) hnewest
    | cons first before ih =>
        cases hturns with
        | @cons _ c₁ _ _ _ hturn hrest =>
            have hunmoved := unmoved_of_apart hturn hapart
            have hspec := hunmoved spec (List.mem_append_right _ List.mem_cons_self)
            have hrest' := ih hrest (List.pairwise_cons.mp hapart).2
              (fun other hother => (hunmoved other hother).notWider
                (hwider other (List.mem_cons_of_mem _ hother)))
              (fun hsome => absurd (hspec.newest_iff.mp hsome) hnewest)
              (fun hsome => hnewest (hspec.newest_iff.mp hsome))
            rw [hrest']
            refine forall₂_congr fun other hother => ?_
            rw [(hunmoved other (List.mem_append_right _
              (List.mem_cons_of_mem _ hother))).older_iff]

end Renames

section Runs

variable {faults : Faults} {c c' : Catalog} {usersTime subscriptionsTime : ℕ} {spec : TableSpec}

theorem Known.notWider (h : Known spec c) : NotWider spec c := by
  intro _ table hfound
  rcases h with hmissing | ⟨⟨current, hcurrent⟩, -⟩ | ⟨m, old, hm, hold⟩
  · cases hmissing.symm.trans hfound
  · obtain rfl : current = table := Option.some.inj (hcurrent.found.symm.trans hfound)
    rw [hcurrent.schema]
  · obtain rfl : old = table := Option.some.inj (hold.found.symm.trans hfound)
    exact (hold.narrow hm).le

/-- A table that is new refers to what it should. -/
theorem Known.references (h : Known spec c) (hnewest : Newest spec.name spec.schema c) :
    c.references spec.name = spec.references := by
  obtain ⟨table, hfound, hwide⟩ := hnewest
  rcases h with hmissing | ⟨-, hreferences⟩ | ⟨m, old, hm, hold⟩
  · cases hmissing.symm.trans hfound
  · exact hreferences
  · obtain rfl : old = table := Option.some.inj (hold.found.symm.trans hfound)
    exact absurd hwide (Nat.not_le_of_lt (hold.narrow hm))

/-- A run that succeeds finds no narrow table of which there is no old version. -/
theorem not_older_firstSpecs (hturns : Turns faults c (tableSpecs usersTime subscriptionsTime) c')
    {spec : TableSpec} (hspec : spec ∈ firstSpecs) : ¬ Older spec.name spec.schema c := by
  have houtcome := outcome_of_turns hturns (tableSpecs_apart usersTime subscriptionsTime) spec
    (List.mem_append_right _ hspec)
  cases houtcome with
  | kept hbefore hwide _ _ => exact Newest.not_older ⟨_, hbefore, hwide⟩
  | made hmissing _ _ =>
      rintro ⟨older, holder, -⟩
      cases hmissing.symm.trans holder
  | updated hm _ _ _ _ _ =>
      rw [migration_firstSpecs spec hspec] at hm
      cases hm

theorem notWider_tableSpecs (hknown : KnownTables usersTime subscriptionsTime c) :
    ∀ spec ∈ tableSpecs usersTime subscriptionsTime, NotWider spec c := by
  intro spec hspec
  rcases List.mem_append.mp hspec with hmigrated | hfirst
  · exact (hknown spec hmigrated).notWider
  · intro hsome
    rw [migration_firstSpecs spec hfirst] at hsome
    cases hsome

theorem references_spec_iff (before : List TableSpec) {after : List TableSpec} (spec : TableSpec)
    (hturns : Turns faults c (tableSpecs usersTime subscriptionsTime) c') (hsteps : Steps faults)
    (hknown : KnownTables usersTime subscriptionsTime c)
    (hsplit : tableSpecs usersTime subscriptionsTime = before ++ spec :: after)
    (hspec : spec ∈ migratedSpecs usersTime subscriptionsTime) :
    c'.references spec.name = spec.references ↔
      (∀ other ∈ after, Older other.name other.schema c →
        ∀ reference ∈ spec.references, reference.table ≠ other.name) ∧
      (Newest spec.name spec.schema c → ∀ other ∈ before, Older other.name other.schema c →
        ∀ reference ∈ spec.references, reference.table ≠ other.name) := by
  have hapart := tableSpecs_apart usersTime subscriptionsTime
  have hwider := notWider_tableSpecs hknown
  rw [hsplit] at hturns hapart hwider
  exact references_iff_of_turns hturns hsteps hapart hwider (hknown spec hspec).references

/-- What the tables that may be old refer to in the end. -/
theorem references_migratedSpecs_iff
    (hturns : Turns faults c (tableSpecs usersTime subscriptionsTime) c') (hsteps : Steps faults)
    (hknown : KnownTables usersTime subscriptionsTime c) :
    (∀ spec ∈ migratedSpecs usersTime subscriptionsTime,
      c'.references spec.name = spec.references) ↔
    ¬ Older "users" usersSchema c ∧
      (Older "channels" channelsSchema c →
        ¬ Newest "posts" postsSchema c ∧ ¬ Newest "subscriptions" subscriptionsSchema c) ∧
      (Older "posts" postsSchema c →
        ¬ Newest "comments" commentsSchema c ∧ ¬ Newest "likes" likesSchema c) := by
  have hchannels := references_spec_iff [] channelsSpec hturns hsteps hknown rfl
    (by simp [migratedSpecs])
  have hposts := references_spec_iff [channelsSpec] postsSpec hturns hsteps hknown rfl
    (by simp [migratedSpecs])
  have hcomments := references_spec_iff [channelsSpec, postsSpec] commentsSpec
    hturns hsteps hknown rfl (by simp [migratedSpecs])
  have husers := references_spec_iff [channelsSpec, postsSpec, commentsSpec] (usersSpec usersTime)
    hturns hsteps hknown rfl (by simp [migratedSpecs])
  have hsubscriptions := references_spec_iff
    [channelsSpec, postsSpec, commentsSpec, usersSpec usersTime]
    (subscriptionsSpec subscriptionsTime) hturns hsteps hknown rfl (by simp [migratedSpecs])
  have hlikes := references_spec_iff [channelsSpec, postsSpec, commentsSpec, usersSpec usersTime,
    subscriptionsSpec subscriptionsTime] likesSpec
    hturns hsteps hknown rfl (by simp [migratedSpecs])
  -- of the tables that come later, only the users are referred to, by the comments
  have hreferred : (∀ spec ∈ migratedSpecs usersTime subscriptionsTime,
        c'.references spec.name = spec.references) ↔
      (Newest "posts" postsSchema c → ¬ Older "channels" channelsSchema c) ∧
      (¬ Older "users" usersSchema c ∧
        (Newest "comments" commentsSchema c → ¬ Older "posts" postsSchema c)) ∧
      (Newest "subscriptions" subscriptionsSchema c →
        ¬ Older "channels" channelsSchema c ∧ ¬ Older "users" usersSchema c) ∧
      (Newest "likes" likesSchema c →
        ¬ Older "posts" postsSchema c ∧ ¬ Older "users" usersSchema c) := by
    rw [migratedSpecs]
    simp only [List.forall_mem_cons, hchannels, hposts, hcomments, husers, hsubscriptions,
      hlikes]
    simp [channelsSpec, postsSpec, commentsSpec, usersSpec, subscriptionsSpec, likesSpec,
      widened, firstSpecs, firstVersion, postsReferences, commentsReferences,
      subscriptionsReferences, likesReferences, userReference, postReference, channelReference]
  rw [hreferred]
  constructor
  · rintro ⟨hposts, ⟨husers, hcomments⟩, hsubscriptions, hlikes⟩
    refine ⟨husers, fun holder => ⟨?_, ?_⟩, fun holder => ⟨?_, ?_⟩⟩
    · exact fun hnewest => hposts hnewest holder
    · exact fun hnewest => (hsubscriptions hnewest).1 holder
    · exact fun hnewest => hcomments hnewest holder
    · exact fun hnewest => (hlikes hnewest).1 holder
  · rintro ⟨husers, hchannels, hposts⟩
    refine ⟨?_, ⟨husers, ?_⟩, fun hnewest => ⟨?_, husers⟩, fun hnewest => ⟨?_, husers⟩⟩
    · exact fun hnewest holder => (hchannels holder).1 hnewest
    · exact fun hnewest holder => (hposts holder).1 hnewest
    · exact fun holder => (hchannels holder).2 hnewest
    · exact fun holder => (hposts holder).2 hnewest

/-- What the tables of other names refer to in the end. -/
theorem references_others_iff {name : String} {table : Table}
    (hturns : Turns faults c (tableSpecs usersTime subscriptionsTime) c') (hsteps : Steps faults)
    (hknown : KnownTables usersTime subscriptionsTime c)
    (hname : name ∉ (migratedSpecs usersTime subscriptionsTime).map TableSpec.name)
    (htable : c.tables name = some table) :
    c'.references name = c.references name ↔ ∀ spec ∈ migratedSpecs usersTime subscriptionsTime,
      Older spec.name spec.schema c →
        ∀ reference ∈ c.references name, reference.table ≠ spec.name := by
  have hstands : Stands (tableSpecs usersTime subscriptionsTime) name c := by
    refine ⟨⟨table, htable⟩, ?_, notWider_tableSpecs hknown, tableSpecs_apart _ _⟩
    intro spec hspec hsame
    rcases List.mem_append.mp hspec with hmigrated | hfirst
    · exact absurd (hsame ▸ List.mem_map_of_mem hmigrated) hname
    · have hwide := not_older_firstSpecs hturns hfirst
      exact ⟨table, hsame ▸ htable, Nat.le_of_not_lt fun hlt => hwide ⟨table, hsame ▸ htable, hlt⟩⟩
  rw [references_of_turns hturns hsteps hstands, tableSpecs, List.forall_mem_append]
  exact and_iff_left fun spec hspec holder =>
    absurd holder (not_older_firstSpecs hturns hspec)

theorem older_of_sameShape {references : List Reference} {usersTime' subscriptionsTime' : ℕ}
    (hrefers : ∀ spec ∈ migratedSpecs usersTime' subscriptionsTime',
      Older spec.name spec.schema c → ∀ reference ∈ references, reference.table ≠ spec.name) :
    ∀ spec ∈ migratedSpecs usersTime subscriptionsTime, Older spec.name spec.schema c →
      ∀ reference ∈ references, reference.table ≠ spec.name := by
  intro spec hspec holder
  obtain ⟨other, hother, hshape⟩ := exists_sameShape usersTime' subscriptionsTime' hspec
  obtain ⟨hname, hrest⟩ := Prod.mk.inj hshape
  obtain ⟨hschema, -⟩ := Prod.mk.inj hrest
  rw [← hname, ← hschema] at holder
  exact hname ▸ hrefers other hother holder

/-- What `db_init` leaves when it succeeds: the rows and the current schemas, the other tables
as they were, and nothing for a second `db_init` to do. -/
structure Migrated (faults : Faults) (usersTime subscriptionsTime : ℕ) (c c' : Catalog) :
    Prop where
  tables : ∀ spec ∈ migratedSpecs usersTime subscriptionsTime, Preserves faults spec c c'
  references : ∀ spec ∈ migratedSpecs usersTime subscriptionsTime,
    c'.references spec.name = spec.references
  others : ∀ name ∉ (migratedSpecs usersTime subscriptionsTime).map TableSpec.name,
    ∀ table, c.tables name = some table →
      c'.tables name = some table ∧ c'.references name = c.references name
  again : ∀ usersTime' subscriptionsTime' faults', Steps faults' →
    ((dbInit usersTime' subscriptionsTime').run faults' (.on c')).2.conn.tables = c'

/-- No table that stays refers to one that is renamed.  The comments are made before the users
are renamed, so that they refer to the old ones in any case. -/
structure ReferencesStand (c : Catalog) : Prop where
  users : ¬ Older "users" usersSchema c
  channels : Older "channels" channelsSchema c →
    ¬ Newest "posts" postsSchema c ∧ ¬ Newest "subscriptions" subscriptionsSchema c
  posts : Older "posts" postsSchema c →
    ¬ Newest "comments" commentsSchema c ∧ ¬ Newest "likes" likesSchema c
  others : ∀ name ∉ (migratedSpecs 0 0).map TableSpec.name, (c.tables name).isSome = true →
    ∀ spec ∈ migratedSpecs 0 0, Older spec.name spec.schema c →
      ∀ reference ∈ c.references name, reference.table ≠ spec.name

/-- A channel of an old version, which has neither a status nor a proof. -/
def oldChannels : Table where
  schema := autoincrementTable "channel_id"
    ["created_at", "updated_at", "name", "intro", "next_post_id", "subscribers", "avatar"]
    [["name"]]
  rows := [[.number 7, .number 100, .number 200, .text "news", .text "intro", .number 3,
    .number 2, .blob [1]]]
  fits := by decide
  distinct := by decide

def oldCatalog : Catalog where
  tables name := if name = "channels" then some oldChannels else none
  indexes name :=
    if name = "channels_created_at_index" then
      some ⟨"channels", ["created_at"]⟩
    else if name = "channels_updated_at_index" then
      some ⟨"channels", ["updated_at"]⟩
    else
      none
  references _ := []

/-- A user of an old version. -/
def oldUsers : Table where
  schema := autoincrementTable "user_id" ["did", "name", "email"] [["did"]]
  rows := [[.number 1, .text "did:elastos:owner", .text "owner", .text "NA"]]
  fits := by decide
  distinct := by decide

def oldUsersCatalog : Catalog where
  tables name := if name = "users" then some oldUsers else none
  indexes _ := none
  references _ := []

end Runs

end FeedsService.Sql
