import FeedsService.Library.KeyedTable
import FeedsService.Rpc.Safety

/-!
# The two versions of a request

Nine methods have a parser for each version.  The parser of version 2.0 looks up more fields;
the one of version 1.0 fills their members itself.
-/

namespace FeedsService.Rpc

open FeedsService.Library FeedsService.Library.KeyedTable

/-- A field that only version 2.0 has. -/
inductive Added
  | text (key : String) (member : Member)
  | thumbnails

namespace Added

def field : Added → Field
  | .text key member => .str key member
  | .thumbnails => .bin "thumbnails" .thumbnails

/-- What version 1.0 puts into its member. -/
def default : Added → Member × Default
  | .text _ member => (member, .str "NA")
  | .thumbnails => (.thumbnails, .bin [0xA0])

/-- The value that says the same in version 2.0. -/
def value : Added → Value
  | .text _ _ => .str (sized "NA")
  | .thumbnails => .bin ⟨[0xA0], by decide⟩

/-- The entry of a message with that value. -/
def Is (added : Added) (entry : Object × Object) : Prop :=
  added.field.pick entry = some added.value

end Added

/-- A method with two parsers, and the fields of the second one. -/
structure TwoVersions where
  method : String
  old : ReqHdlr
  new : ReqHdlr
  added : List Added

def twoVersions : List TwoVersions :=
  [⟨"create_channel", unmarshalCreateChanReq, unmarshalCreateChanReq2,
      [.text "tip_methods" .tipm, .text "proof" .proof]⟩,
   ⟨"update_feedinfo", unmarshalUpdChanReq, unmarshalUpdChanReq2,
      [.text "tip_methods" .tipm, .text "proof" .proof]⟩,
   ⟨"publish_post", unmarshalPubPostReq, unmarshalPubPostReq2,
      [.thumbnails, .text "hash_id" .hashId, .text "proof" .proof,
        .text "origin_post_url" .originPostUrl]⟩,
   ⟨"declare_post", unmarshalDeclarePostReq, unmarshalDeclarePostReq2,
      [.thumbnails, .text "hash_id" .hashId, .text "proof" .proof,
        .text "origin_post_url" .originPostUrl]⟩,
   ⟨"edit_post", unmarshalEditPostReq, unmarshalEditPostReq2,
      [.thumbnails, .text "hash_id" .hashId, .text "proof" .proof,
        .text "origin_post_url" .originPostUrl]⟩,
   ⟨"post_comment", unmarshalPostCmtReq, unmarshalPostCmtReq2,
      [.thumbnails, .text "hash_id" .hashId, .text "proof" .proof]⟩,
   ⟨"edit_comment", unmarshalEditCmtReq, unmarshalEditCmtReq2,
      [.thumbnails, .text "hash_id" .hashId, .text "proof" .proof]⟩,
   ⟨"post_like", unmarshalPostLikeReq, unmarshalPostLikeReq2, [.text "proof" .proof]⟩,
   ⟨"subscribe_channel", unmarshalSubChanReq, unmarshalSubChanReq2, [.text "proof" .proof]⟩]

/-- The value of a member. -/
def Req.slot (req : Req) (member : Member) : Option Slot :=
  (KeyedTable.get Prod.fst req.params member).map Prod.snd

/-- The requests are equal in every field. -/
structure Req.Same (left right : Req) : Prop where
  method : left.method = right.method
  tsxId : left.tsxId = right.tsxId
  slot : ∀ member, left.slot member = right.slot member

/-- The answer to a request that fails a check or gets no memory. -/
def refused : Answer where
  rc := -1
  req := none

/-- Both parsers give the same request, or both refuse. -/
inductive Agree : Except Fault Answer → Except Fault Answer → Prop
  | succeed {left right : Req} (same : left.Same right) :
      Agree (.ok { rc := 0, req := some left }) (.ok { rc := 0, req := some right })
  | refuse : Agree (.ok refused) (.ok refused)

theorem not_agree_error {fault : Fault} {new : Except Fault Answer} :
    ¬ Agree (.error fault) new := by
  intro h
  cases h

section Pairs

/-- The parsers do the same but for the members of the added fields. -/
structure TwoVersions.Matches (two : TwoVersions) : Prop where
  params : two.new.params = two.old.params ++ two.added.map Added.field
  defaults : two.old.defaults.Perm (two.added.map Added.default)
  noDefaults : two.new.defaults = []
  added : two.added ≠ []
  keys : ((two.old.params ++ two.added.map Added.field).map fun field => bytesOf field.key).Nodup
  members : (two.old.params.map Field.member ++ two.old.defaults.map Prod.fst).Nodup
  setsMethod : two.old.setsMethod = true ∧ two.new.setsMethod = true
  ordinary : two.old.Ordinary ∧ two.new.Ordinary
  demanded : ∀ field ∈ two.old.params, field.mayStore none = false
  checked : ∀ field ∈ two.old.params, field.passes none = true → two.method = "declare_post"

theorem matches_of_mem {two : TwoVersions} (htwo : two ∈ twoVersions) : two.Matches := by
  simp only [twoVersions, List.mem_cons, List.not_mem_nil, or_false] at htwo
  rcases htwo with rfl | rfl | rfl | rfl | rfl | rfl | rfl | rfl | rfl
  all_goals
    refine ⟨rfl, ?_, rfl, List.cons_ne_nil _ _, by decide, by decide, ⟨rfl, rfl⟩, by decide,
      by decide, by decide⟩
  · exact .refl _
  · exact .refl _
  · exact List.perm_append_singleton (Added.default .thumbnails) [_, _, _]
  · exact List.perm_append_singleton (Added.default .thumbnails) [_, _, _]
  · exact List.perm_append_singleton (Added.default .thumbnails) [_, _, _]
  · exact List.perm_append_singleton (Added.default .thumbnails) [_, _]
  · exact List.perm_append_singleton (Added.default .thumbnails) [_, _]
  · exact .refl _
  · exact .refl _

end Pairs

section Values

variable {two : TwoVersions} {entries extra : Entries}

/-- The entries have the names of the fields, in order. -/
def Spelled (fields : List Field) (entries : Entries) : Prop :=
  List.Forall₂ (fun field entry => names field.key entry.1 = true) fields entries

/-- The values have the types of the fields, too. -/
def Typed (fields : List Field) (entries : Entries) : Prop :=
  List.Forall₂ (fun field entry => (Field.pick field entry).isSome = true) fields entries

/-- The added fields read their entries. -/
theorem scan_added {added : List Added} (hextra : List.Forall₂ Added.Is added extra) :
    scan Field.pick (added.map Added.field) extra = added.map fun added => some added.value := by
  induction hextra with
  | nil => rfl
  | cons hentry _ ih =>
      have hvalue : Field.pick _ _ = some _ := hentry
      simp only [List.map_cons, scan, take, hvalue, ih]

/-- What the fields of both versions are paired with, in a message of version 2.0. -/
theorem zip_scan (hmatches : two.Matches) (htyped : Typed two.old.params entries)
    (hextra : List.Forall₂ Added.Is two.added extra) :
    two.new.params.zip (scan Field.pick two.new.params (entries ++ extra)) =
      two.old.params.zip (scan Field.pick two.old.params entries) ++
        two.added.map fun added => (added.field, some added.value) := by
  rw [hmatches.params, scan_append htyped, scan_added hextra,
    List.zip_append (length_scan _ _).symm, List.zip_map']

/-- The check of an added field passes. -/
theorem Added.passes (added : Added) : added.field.passes (some added.value) = true := by
  cases added with
  | text key member => rfl
  | thumbnails => rfl

theorem Added.short (added : Added) : Short (added.field.copied (some added.value)) := by
  cases added with
  | text key member =>
      intro text htext
      cases htext
      decide
  | thumbnails =>
      intro text htext
      cases htext

/-- It sets its member to what version 1.0 does. -/
theorem Added.slot (added : Added) :
    added.field.slot (some added.value) = some (added.default.1, added.default.2.slot) := by
  cases added with
  | text key member => rfl
  | thumbnails => rfl

/-- Two fields with different names do not share an entry. -/
theorem apart_of_keys {fields : List Field}
    (hkeys : (fields.map fun field => bytesOf field.key).Nodup) :
    fields.Pairwise fun left right => ∀ entry : Object × Object,
      names left.key entry.1 = true → ¬ names right.key entry.1 = true := by
  refine (List.pairwise_map.mp hkeys).imp ?_
  rintro left right hne ⟨key, value⟩ hleft hright
  cases key with
  | str bytes =>
      simp only [names, beq_iff_eq] at hleft hright
      exact hne (hleft.symm.trans hright)
  | _ => cases hleft

end Values

section Fills

variable {two : TwoVersions} {entries extra : Entries} {alloc : ℕ → Bool} {method : Sized}
  {id : UInt64}

/-- Values of the right types pass the checks of both parsers or of neither. -/
theorem checks_iff (hmatches : two.Matches) (htyped : Typed two.old.params entries)
    (hextra : List.Forall₂ Added.Is two.added extra) :
    two.new.Checks (scan Field.pick two.new.params (entries ++ extra)) ↔
      two.old.Checks (scan Field.pick two.old.params entries) := by
  rw [ReqHdlr.Checks, zip_scan hmatches htyped hextra, ReqHdlr.Checks, List.forall_mem_append,
    List.forall_mem_map]
  exact and_iff_left fun added _ => added.passes

theorem fits_iff (hmatches : two.Matches) (htyped : Typed two.old.params entries)
    (hextra : List.Forall₂ Added.Is two.added extra) :
    two.new.Fits method (scan Field.pick two.new.params (entries ++ extra)) ↔
      two.old.Fits method (scan Field.pick two.old.params entries) := by
  rw [hmatches.ordinary.2.fits_iff, zip_scan hmatches htyped hextra,
    hmatches.ordinary.1.fits_iff, List.forall_mem_append, List.forall_mem_map]
  exact and_iff_left fun added _ => added.short

theorem noneMissing_of_scan {parser : ReqHdlr} {values : List (Option Value)}
    (hvalues : ∀ value ∈ values, value.isSome = true) : parser.NoneMissing values :=
  fun pair hpair _ => hvalues pair.2 (List.of_mem_zip hpair).2

theorem noneMissing_new (hmatches : two.Matches) (htyped : Typed two.old.params entries)
    (hextra : List.Forall₂ Added.Is two.added extra) :
    two.new.NoneMissing (scan Field.pick two.new.params (entries ++ extra)) := by
  rw [ReqHdlr.NoneMissing, zip_scan hmatches htyped hextra, List.forall_mem_append,
    List.forall_mem_map]
  exact ⟨noneMissing_of_scan (isSome_of_scan htyped), fun _ _ _ => rfl⟩

/-- The members that are set are members of fields. -/
theorem slots_sublist (pairs : List (Field × Option Value)) :
    ((slots pairs).map Prod.fst).Sublist (pairs.map fun pair => pair.1.member) := by
  induction pairs with
  | nil => exact .slnil
  | cons pair pairs ih =>
      have hcons : slots (pair :: pairs) = (pair.1.slot pair.2).toList ++ slots pairs := rfl
      have hfirst : ((pair.1.slot pair.2).toList.map Prod.fst).Sublist [pair.1.member] := by
        rw [Field.slot]
        split
        · exact List.nil_sublist _
        · cases pair.2 with
          | none => exact List.nil_sublist _
          | some value => exact .refl _
      rw [hcons, List.map_append, List.map_cons, ← List.singleton_append]
      exact hfirst.append ih

theorem slots_append (left right : List (Field × Option Value)) :
    slots (left ++ right) = slots left ++ slots right :=
  List.flatMap_append

/-- The added fields set their members to what version 1.0 does. -/
theorem slots_added (added : List Added) :
    slots (added.map fun added => (added.field, some added.value)) =
      added.map fun added => (added.default.1, added.default.2.slot) := by
  induction added with
  | nil => rfl
  | cons first added ih =>
      rw [List.map_cons, List.map_cons, ← ih]
      change (first.field.slot (some first.value)).toList ++ slots _ = _
      rw [first.slot]
      rfl

/-- Version 1.0 sets no member twice. -/
theorem keyed_request (hmatches : two.Matches) (values : List (Option Value))
    (hlength : values.length = two.old.params.length) :
    Keyed Prod.fst (two.old.request method id values).params := by
  have hfields : ((slots (two.old.params.zip values)).map Prod.fst).Sublist
      (two.old.params.map Field.member) := by
    have hsub := slots_sublist (two.old.params.zip values)
    have hmap : (two.old.params.zip values).map (fun pair => pair.1.member) =
        two.old.params.map Field.member :=
      calc
        (two.old.params.zip values).map (fun pair => pair.1.member)
            = ((two.old.params.zip values).map Prod.fst).map Field.member :=
          List.map_map.symm
        _ = two.old.params.map Field.member := by rw [List.map_fst_zip hlength.ge]
    rwa [hmap] at hsub
  rw [Keyed, ReqHdlr.request, List.map_append, List.map_map]
  exact hmatches.members.sublist (hfields.append (.refl _))

/-- Both parsers fill in the same request. -/
theorem same_request (hmatches : two.Matches) (htyped : Typed two.old.params entries)
    (hextra : List.Forall₂ Added.Is two.added extra) :
    (two.old.request method id (scan Field.pick two.old.params entries)).Same
      (two.new.request method id (scan Field.pick two.new.params (entries ++ extra))) := by
  refine ⟨?_, rfl, fun member => ?_⟩
  · rw [ReqHdlr.request, ReqHdlr.request, hmatches.setsMethod.1, hmatches.setsMethod.2]
  · have hperm : (two.old.request method id (scan Field.pick two.old.params entries)).params.Perm
        (two.new.request method id
          (scan Field.pick two.new.params (entries ++ extra))).params := by
      rw [ReqHdlr.request, ReqHdlr.request, zip_scan hmatches htyped hextra, hmatches.noDefaults,
        List.map_nil, List.append_nil, slots_append, slots_added]
      have hdefaults := hmatches.defaults.map fun entry => (entry.1, entry.2.slot)
      rw [List.map_map] at hdefaults
      exact hdefaults.append_left _
    rw [Req.slot, Req.slot, get_perm (keyed_request hmatches _ (length_scan _ _)) hperm]

end Fills

section Outcomes

variable {parser : ReqHdlr} {alloc : ℕ → Bool} {method : Sized} {id : UInt64}
  {values : List (Option Value)}

/-- What a parser copies and follows does no harm. -/
def ReqHdlr.Sound (parser : ReqHdlr) (method : Sized) (values : List (Option Value)) : Prop :=
  Short (some method) ∧ parser.NoneMissing values ∧ parser.Fits method values

theorem ReqHdlr.fill_refused
    (hgranted : ¬ (parser.Checks values ∧
      alloc (parser.blockSize (some method) values) = true)) :
    parser.fill alloc (some method) (some id) values = .ok refused := by
  by_cases hchecks : parser.Checks values
  · have halloc : alloc (parser.blockSize (some method) values) = false :=
      Bool.eq_false_iff.mpr fun htrue => hgranted ⟨hchecks, htrue⟩
    exact fill_of_not_alloc halloc _
  · exact fill_of_not_checks hchecks alloc _ _

theorem ReqHdlr.fill_sound (hsets : parser.setsMethod = true) (hchecks : parser.Checks values)
    (halloc : alloc (parser.blockSize (some method) values) = true)
    (hsound : parser.Sound method values) :
    parser.fill alloc (some method) (some id) values =
      .ok { rc := 0, req := some (parser.request method id values) } :=
  (fill_eq_ok hchecks halloc hsound.1 fun hskip => absurd hsets (by rw [hskip]; decide)).mpr
    ⟨hsound.2, rfl⟩

/-- A parser that gets past its checks and gets its block goes wrong, otherwise. -/
theorem ReqHdlr.fill_unsound (hsets : parser.setsMethod = true)
    (hchecks : parser.Checks values)
    (halloc : alloc (parser.blockSize (some method) values) = true)
    (hsound : ¬ parser.Sound method values) :
    ∃ fault, parser.fill alloc (some method) (some id) values = .error fault := by
  cases hfill : parser.fill alloc (some method) (some id) values with
  | error fault => exact ⟨fault, rfl⟩
  | ok answer =>
      exfalso
      by_cases hmethod : Short (some method)
      · have hok := (fill_eq_ok hchecks halloc hmethod
          fun hskip => absurd hsets (by rw [hskip]; decide)).mp hfill
        exact hsound ⟨hmethod, hok.1⟩
      · have hall : (parser.params.zip values).all (fun pair => pair.1.passes pair.2) = true :=
          List.all_eq_true.mpr hchecks
        simp only [ReqHdlr.fill, hall, halloc, Bool.not_true, Bool.false_eq_true, if_false,
          bind_eq_ok] at hfill
        obtain ⟨⟨afterMethod, buffer⟩, hstore, -⟩ := hfill
        rw [ReqHdlr.storeMethod, hsets, if_pos rfl, bind_eq_ok] at hstore
        obtain ⟨⟨next, piece⟩, hcopy, -⟩ := hstore
        exact hmethod (copy_eq_ok.mp hcopy).1.2

end Outcomes

section Versions

variable {two : TwoVersions} {obj obj' rest rest' extra : Entries}
  {version version' method : Sized} {id : UInt64} {alloc : ℕ → Bool}

theorem sound_iff (hmatches : two.Matches) {entries : Entries}
    (htyped : Typed two.old.params entries) (hextra : List.Forall₂ Added.Is two.added extra) :
    two.new.Sound method (scan Field.pick two.new.params (entries ++ extra)) ↔
      two.old.Sound method (scan Field.pick two.old.params entries) := by
  have hold : two.old.NoneMissing (scan Field.pick two.old.params entries) :=
    noneMissing_of_scan (isSome_of_scan htyped)
  have hnew := noneMissing_new hmatches htyped hextra
  rw [ReqHdlr.Sound, ReqHdlr.Sound, fits_iff hmatches htyped hextra]
  exact and_congr_right fun _ => and_congr_left fun _ => iff_of_true hnew hold

/-- What a request of version 1.0 must not be once it has passed its checks and has its block:
a `declare_post` with a value of another type, which can only be the flag that is not checked,
or one with a string of 2^32 - 1 bytes. -/
structure TwoVersions.Bears (two : TwoVersions) (method : Sized) (entries : Entries) : Prop where
  flag : two.method = "declare_post" → Typed two.old.params entries
  method : Short (some method)
  strings : ∀ pair ∈ two.old.params.zip (scan Field.pick two.old.params entries),
    Short (pair.1.copied pair.2)

theorem sound_iff_bears (hmatches : two.Matches) {entries : Entries}
    (htyped : Typed two.old.params entries) :
    two.old.Sound method (scan Field.pick two.old.params entries) ↔ two.Bears method entries := by
  have hnone : two.old.NoneMissing (scan Field.pick two.old.params entries) :=
    noneMissing_of_scan (isSome_of_scan htyped)
  rw [ReqHdlr.Sound, hmatches.ordinary.1.fits_iff]
  constructor
  · rintro ⟨hmethod, -, hstrings⟩
    exact ⟨fun _ => htyped, hmethod, hstrings⟩
  · intro hbears
    exact ⟨hbears.method, hnone, hbears.strings⟩

/-- Values of the right types: the two parsers agree unless a string is too long for both. -/
theorem agree_of_typed (hmatches : two.Matches) {entries : Entries}
    (htyped : Typed two.old.params entries) (hextra : List.Forall₂ Added.Is two.added extra)
    (halloc : alloc (two.old.blockSize (some method)
        (scan Field.pick two.old.params entries)) =
      alloc (two.new.blockSize (some method)
        (scan Field.pick two.new.params (entries ++ extra)))) :
    Agree
        (two.old.fill alloc (some method) (some id) (scan Field.pick two.old.params entries))
        (two.new.fill alloc (some method) (some id)
          (scan Field.pick two.new.params (entries ++ extra))) ↔
      (two.old.Checks (scan Field.pick two.old.params entries) →
        alloc (two.old.blockSize (some method) (scan Field.pick two.old.params entries)) = true →
          two.Bears method entries) := by
  have hchecks := checks_iff hmatches htyped hextra
  have hsound : two.new.Sound method _ ↔ two.old.Sound method _ :=
    sound_iff hmatches htyped hextra
  have hbears : two.old.Sound method (scan Field.pick two.old.params entries) ↔
      two.Bears method entries := sound_iff_bears hmatches htyped
  by_cases hgranted : two.old.Checks (scan Field.pick two.old.params entries) ∧
      alloc (two.old.blockSize (some method) (scan Field.pick two.old.params entries)) = true
  · have hnew := hgranted
    rw [← hchecks, halloc] at hnew
    rw [forall_prop_of_true hgranted.1, forall_prop_of_true hgranted.2, ← hbears]
    by_cases hold : two.old.Sound method (scan Field.pick two.old.params entries)
    · rw [ReqHdlr.fill_sound hmatches.setsMethod.1 hgranted.1 hgranted.2 hold,
        ReqHdlr.fill_sound hmatches.setsMethod.2 hnew.1 hnew.2 (hsound.mpr hold)]
      exact iff_of_true (.succeed (same_request hmatches htyped hextra)) hold
    · obtain ⟨fault, hfault⟩ : ∃ fault, two.old.fill alloc _ (some id) _ = .error fault :=
        ReqHdlr.fill_unsound hmatches.setsMethod.1 hgranted.1 hgranted.2 hold
      rw [hfault]
      exact iff_of_false not_agree_error hold
  · have hnew := hgranted
    rw [← hchecks, halloc] at hnew
    rw [ReqHdlr.fill_refused hgranted, ReqHdlr.fill_refused hnew]
    exact iff_of_true .refuse fun hpassed hblock => absurd ⟨hpassed, hblock⟩ hgranted

/-- A value of another type: version 2.0 refuses, and version 1.0 does so unless its checks let
the value by. -/
theorem agree_of_misfit (hmatches : two.Matches) {entries : Entries}
    (hspelled : Spelled two.old.params entries)
    (hmisfit : ¬ Typed two.old.params entries) :
    Agree
        (two.old.fill alloc (some method) (some id) (scan Field.pick two.old.params entries))
        (two.new.fill alloc (some method) (some id)
          (scan Field.pick two.new.params (entries ++ extra))) ↔
      (two.old.Checks (scan Field.pick two.old.params entries) →
        alloc (two.old.blockSize (some method) (scan Field.pick two.old.params entries)) = true →
          two.Bears method entries) := by
  have hpick : ∀ (field : Field) (entry : Object × Object),
      (Field.pick field entry).isSome = true → names field.key entry.1 = true := by
    intro field entry hsome
    obtain ⟨value, hvalue⟩ := Option.isSome_iff_exists.mp hsome
    exact (pickVal_eq_some.mp hvalue).1
  have hmissed := @scan_of_misfit _ _ _ _ _ _ _ _ extra hspelled hpick
    (apart_of_keys hmatches.keys) hmisfit
  obtain ⟨⟨field, hold⟩, hmore⟩ := hmissed
  have hnew : two.new.fill alloc (some method) (some id)
      (scan Field.pick two.new.params (entries ++ extra)) = .ok refused := by
    obtain ⟨first, added, hadded⟩ := List.exists_cons_of_ne_nil hmatches.added
    have hmissing := hmore first.field (List.mem_map_of_mem (hadded ▸ List.mem_cons_self))
    rw [← hmatches.params] at hmissing
    refine ReqHdlr.fill_refused fun hgranted => ?_
    have hpasses := hgranted.1 _ hmissing
    cases first <;> cases hpasses
  rw [hnew]
  by_cases hgranted : two.old.Checks (scan Field.pick two.old.params entries) ∧
      alloc (two.old.blockSize (some method) (scan Field.pick two.old.params entries)) = true
  · have hfield : field ∈ two.old.params := (List.of_mem_zip hold).1
    have hunsound : ¬ two.old.Sound method (scan Field.pick two.old.params entries) := by
      intro hsound
      have hmay := (Field.mayStore_iff (hgranted.1 _ hold)).mpr (hsound.2.1 _ hold)
      rw [hmatches.demanded field hfield] at hmay
      cases hmay
    obtain ⟨fault, hfault⟩ : ∃ fault, two.old.fill alloc _ (some id) _ = .error fault :=
      ReqHdlr.fill_unsound hmatches.setsMethod.1 hgranted.1 hgranted.2 hunsound
    have hmethod : two.method = "declare_post" :=
      hmatches.checked field hfield (hgranted.1 _ hold)
    rw [hfault]
    exact iff_of_false not_agree_error fun hbears =>
      hmisfit ((hbears hgranted.1 hgranted.2).flag hmethod)
  · rw [ReqHdlr.fill_refused hgranted]
    exact iff_of_true .refuse fun hpassed hblock => absurd ⟨hpassed, hblock⟩ hgranted

/-- A request of version 1.0, and the one that says the same in version 2.0. -/
structure TwoVersions.Pair (two : TwoVersions) (alloc : ℕ → Bool) (method : Sized)
    (obj rest obj' : Entries) : Prop where
  old : ∃ version id, Envelope obj version method id rest ∧
    ∃ version' rest' extra, Envelope obj' version' method id rest' ∧
      paramsOf rest' = paramsOf rest ++ extra ∧ List.Forall₂ Added.Is two.added extra ∧
      alloc (two.old.blockSize (some method) (two.old.valuesIn rest)) =
        alloc (two.new.blockSize (some method) (two.new.valuesIn rest'))
  spelled : Spelled two.old.params (paramsOf rest)

/-- Version 2.0 with `"NA"` for its strings and the byte 0xA0 for its thumbnails is version 1.0,
for each of the nine methods, exactly when the request of version 1.0 bears what its parser does
once it has passed the checks. -/
theorem versions_agree_iff (htwo : two ∈ twoVersions)
    (hpair : two.Pair alloc method obj rest obj') :
    Agree (two.old.unmarshal alloc obj) (two.new.unmarshal alloc obj') ↔
      (two.old.Checks (two.old.valuesIn rest) →
        alloc (two.old.blockSize (some method) (two.old.valuesIn rest)) = true →
          two.Bears method (paramsOf rest)) := by
  obtain ⟨⟨version, id, hold, version', rest', extra, hnew, hparams, hextra, halloc⟩, hspelled⟩ :=
    hpair
  have hmatches := matches_of_mem htwo
  rw [hold.unmarshal_eq, hnew.unmarshal_eq, hparams]
  rw [ReqHdlr.valuesIn, ReqHdlr.valuesIn, hparams] at halloc
  by_cases htyped : Typed two.old.params (paramsOf rest)
  · exact agree_of_typed hmatches htyped hextra halloc
  · exact agree_of_misfit hmatches hspelled htyped

/-- What both versions say when they declare a post of channel 1. -/
def declaration (flag : Object) : Entries :=
  [(.str (sized "access_token"), .str (sized "token")),
    (.str (sized "channel_id"), .positiveInteger 1),
    (.str (sized "content"), .bin ⟨[7], by decide⟩), (.str (sized "with_notify"), flag)]

/-- What only version 2.0 says. -/
def declarationAdded : Entries :=
  [(.str (sized "thumbnails"), .bin ⟨[0xA0], by decide⟩),
    (.str (sized "hash_id"), .str (sized "NA")), (.str (sized "proof"), .str (sized "NA")),
    (.str (sized "origin_post_url"), .str (sized "NA"))]

def declareMessage (version : Sized) (params : Entries) : Entries :=
  [(.str (sized "version"), .str version),
    (.str (sized "method"), .str (sized "declare_post")),
    (.str (sized "id"), .positiveInteger 7), (.str (sized "params"), .map params)]

def declarePost : TwoVersions where
  method := "declare_post"
  old := unmarshalDeclarePostReq
  new := unmarshalDeclarePostReq2
  added := [.thumbnails, .text "hash_id" .hashId, .text "proof" .proof,
    .text "origin_post_url" .originPostUrl]

theorem declarePost_mem : declarePost ∈ twoVersions := by
  simp only [twoVersions, declarePost, List.mem_cons, true_or, or_true]

theorem pair_declaration (flag : Object) :
    declarePost.Pair (fun _ => true) (sized "declare_post")
      (declareMessage (sized "1.0") (declaration flag))
      [(.str (sized "params"), .map (declaration flag))]
      (declareMessage (sized "2.0") (declaration flag ++ declarationAdded)) where
  old := ⟨sized "1.0", 7, .mk rfl rfl rfl, sized "2.0",
    [(.str (sized "params"), .map (declaration flag ++ declarationAdded))], declarationAdded,
    .mk rfl rfl rfl, rfl, .cons (by unfold Added.Is; decide) <|
      .cons (by unfold Added.Is; decide) <| .cons (by unfold Added.Is; decide) <|
        .cons (by unfold Added.Is; decide) .nil, rfl⟩
  spelled := .cons (by decide) <| .cons (by decide) <| .cons (by decide) <|
    .cons (show names "with_notify" (.str (sized "with_notify")) = true by decide) .nil

/-- With a flag that is a flag. -/
theorem declare_agree :
    Agree
      (unmarshalDeclarePostReq.unmarshal (fun _ => true)
        (declareMessage (sized "1.0") (declaration (.boolean true))))
      (unmarshalDeclarePostReq2.unmarshal (fun _ => true)
        (declareMessage (sized "2.0") (declaration (.boolean true) ++ declarationAdded))) := by
  have htyped : Typed declarePost.old.params (declaration (.boolean true)) :=
    .cons (by decide) <| .cons (by decide) <| .cons (by decide) <| .cons (by decide) .nil
  refine (versions_agree_iff declarePost_mem (pair_declaration _)).mpr fun _ _ =>
    ⟨fun _ => htyped, ?_, ?_⟩
  · decide
  · decide

/-- With another one version 1.0 follows a null pointer. -/
theorem not_versions_agree :
    ¬ ∀ two ∈ twoVersions, ∀ alloc method obj rest obj',
      two.Pair alloc method obj rest obj' →
        Agree (two.old.unmarshal alloc obj) (two.new.unmarshal alloc obj') := by
  intro h
  have hagree := h declarePost declarePost_mem _ _ _ _ _ (pair_declaration (.positiveInteger 1))
  have hfault : declarePost.old.unmarshal (fun _ => true)
      (declareMessage (sized "1.0") (declaration (.positiveInteger 1))) =
        .error .nullDereference := by rfl
  rw [hfault] at hagree
  exact not_agree_error hagree

end Versions

end FeedsService.Rpc
