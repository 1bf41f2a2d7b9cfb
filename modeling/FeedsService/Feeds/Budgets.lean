import FeedsService.Feeds.Listings
import FeedsService.Library.MsgPackFormat
import FeedsService.Rpc.Acceptance
import FeedsService.Rpc.Packets

/-!
# The budget of a reply

A reply that is split counts down from 100 KiB less than Carrier takes.  A request
that needs less than that beside its content can store an item that is larger, and a
loop that looks at the item at hand again has not asked for the next one.
-/

namespace FeedsService.Feeds

open FeedsService.Library FeedsService.Library.Chunking FeedsService.Library.MsgPack

section Budgets

namespace Listing

/-- What the loop of a handler does; none when the service aborts before it. -/
def splits (listing : Listing) (limit : UInt64) (items : List listing.Item) :
    Option (List (Chunking.Event listing.Item)) :=
  if (items.flatMap listing.logged).any Out.Aborts then
    none
  else
    listing.loop.events limit items

/-- No subtraction from the budget takes more than there is. -/
def NeverWraps (listing : Listing) (limit : UInt64) (items : List listing.Item) : Prop :=
  ∀ events ∈ listing.splits limit items, Chunking.NeverWraps events

/-- When the budget covers a list: no item is larger than the limit, and in the loop whose
look-ahead does not ask for the next item every item that joins a reply has to fit. -/
def Affordable (limit : UInt64) : (listing : Listing) → List listing.Item → Prop
  | .likedData => fun linfos =>
      (∀ li ∈ linfos, Listing.taken .likedData li ≤ limit.toNat) ∧
        likedDataLoop.JoinsFit limit (Listing.taken .likedData) [] linfos
  | listing => fun items => ∀ item ∈ items, listing.taken item ≤ limit.toNat

theorem splits_rendered {listing : Listing} {items : List listing.Item}
    (hrendered : listing.Rendered items) (limit : UInt64) :
    listing.splits limit items = listing.loop.events limit items := by
  rw [splits, (listing.logged_aborts_iff items).mpr hrendered, if_neg Bool.false_ne_true]

theorem splits_not_rendered {listing : Listing} {items : List listing.Item}
    (hrendered : ¬ listing.Rendered items) (limit : UInt64) :
    listing.splits limit items = none := by
  rw [← logged_aborts_iff, Bool.not_eq_false] at hrendered
  rw [splits, if_pos hrendered]

theorem neverWraps_iff_affordable (listing : Listing) (limit : UInt64)
    (fetched : Fetched listing) :
    (∀ events ∈ listing.loop.events limit fetched.items, Chunking.NeverWraps events) ↔
      Affordable limit listing fetched.items := by
  have htaken : ∀ item ∈ fetched.items, listing.loop.taken item = listing.taken item :=
    fun item hitem => loop_taken (fetched.size_lt hitem)
  have hitems : (∀ item ∈ fetched.items, listing.loop.taken item ≤ limit.toNat) ↔
      ∀ item ∈ fetched.items, listing.taken item ≤ limit.toNat :=
    forall₂_congr fun item hitem => by rw [htaken item hitem]
  have hcovered (hlikedData : listing ≠ .likedData) :
      (∀ events ∈ listing.loop.events limit fetched.items, Chunking.NeverWraps events) ↔
        ∀ item ∈ fetched.items, listing.taken item ≤ limit.toNat := by
    rw [← hitems]
    apply Loop.neverWraps_covered (loop_rereads hlikedData)
    intro item hitem
    rw [htaken item hitem, loop_needed (fetched.size_lt hitem)]
    exact taken_le_size item
  cases listing with
  | likedData =>
      have hfit : likedDataLoop.JoinsFit limit _ _ _ ↔ _ :=
        Loop.joinsFit_congr [] fetched.items htaken
      rw [Loop.neverWraps_events, hitems]
      exact and_congr_right' hfit
  | _ => exact hcovered (by decide)

/-- The budget of a handler never wraps exactly when it covers the list, or the list is
not answered at all. -/
theorem neverWraps_iff (listing : Listing) (limit : UInt64) (fetched : Fetched listing) :
    listing.NeverWraps limit fetched.items ↔
      (listing.Rendered fetched.items → Affordable limit listing fetched.items) := by
  by_cases hrendered : listing.Rendered fetched.items
  · rw [NeverWraps, splits_rendered hrendered, neverWraps_iff_affordable,
      forall_prop_of_true hrendered]
  · rw [NeverWraps, splits_not_rendered hrendered]
    simp [hrendered]

end Listing

end Budgets

section Storing

/-- A packet that Carrier takes has this request in it. -/
def Delivered (method : String) (req : Rpc.Req) : Prop :=
  ∃ data message, data.length ≤ elaMaxAppBulkmsgLen.toNat ∧
    standard.unpack Rpc.objectShape data = some (message, []) ∧
    Rpc.rpcUnmarshalReq (fun _ => true) (some message) = .ok { rc := 0, req := some req } ∧
    req.method.map cString = some (bytesOf method)

/-- Some request of these methods has these parameters. -/
def DeliveredBy (methods : List String) (params : List (Rpc.Member × Rpc.Content)) : Prop :=
  ∃ method ∈ methods, ∃ req, Delivered method req ∧
    ∀ param ∈ params, req.content param.1 = some param.2

namespace Listing

/-- What the loops ask of the item can have been stored by a request: the content of a
post or a comment that is gone is empty, and the name and the DID of a user come in one
credential. -/
def Storable : (listing : Listing) → listing.Item → Prop
  | .myChans | .chans | .subChans => fun ci =>
      DeliveredBy ["create_channel", "update_feedinfo"] [(.avatar, .bin ci.avatar)]
  | .posts | .likedPosts => fun pi =>
      pi.content = [] ∧ pi.thumbnails = [] ∨
        DeliveredBy ["publish_post", "declare_post", "edit_post"]
          [(.content, .bin pi.content), (.thumbnails, .bin pi.thumbnails)]
  | .likedData => fun li =>
      DeliveredBy ["post_like"] [(.proof, .str (Rpc.utf8 li.proof))] ∧
        li.user.name.utf8ByteSize + li.user.did.utf8ByteSize ≤ elaMaxAppBulkmsgLen.toNat
  | .cmts => fun ci =>
      ci.content = [] ∧ ci.thumbnails = [] ∨
        DeliveredBy ["post_comment", "edit_comment"]
          [(.content, .bin ci.content), (.thumbnails, .bin ci.thumbnails)]

end Listing

/-- A request of version 1.0 to publish a post. -/
def publishing (content : Bytes) : Packed :=
  .map 4
    (.scalar (.str (bytesOf "version")) <| .scalar (.str (bytesOf "1.0")) <|
      .scalar (.str (bytesOf "method")) <| .scalar (.str (bytesOf "publish_post")) <|
      .scalar (.str (bytesOf "id")) <| .scalar (.int 1) <|
      .scalar (.str (bytesOf "params")) <|
      .map 3
        (.scalar (.str (bytesOf "access_token")) <| .scalar (.str (bytesOf "token")) <|
          .scalar (.str (bytesOf "channel_id")) <| .scalar (.int 1) <|
          .scalar (.str (bytesOf "content")) <| .scalar (.bin content) .done)
        .done)
    .done

theorem sized_publishing {content : Bytes} (hlength : content.length < 2 ^ 32) :
    (publishing content).Sized := by
  simp only [publishing, Packed.Sized, Scalar.Valid, hlength]
  decide

theorem honest_publishing (content : Bytes) : (publishing content).Honest := by
  simp [publishing, Packed.Honest, Packed.width]

theorem length_publishing_le (content : Bytes) :
    ((publishing content).bytes standard).length ≤ content.length + 256 := by
  have hlength := (publishing content).length_bytes_le
  have hcalls : (publishing content).calls = 15 := rfl
  have hpayload : (publishing content).payload = content.length + 70 := by
    simp [publishing, Packed.payload, Token.payload, bytesOf]
    omega
  omega

set_option maxRecDepth 20000 in
theorem unmarshal_publishing (first : UInt8) (rest : Bytes)
    (hsized : (publishing (first :: rest)).Sized) {message : Rpc.Object}
    (hmessage : (publishing (first :: rest)).objects Rpc.objectShape hsized = [message]) :
    ∃ req, Rpc.rpcUnmarshalReq (fun _ => true) (some message) =
        .ok { rc := 0, req := some req } ∧
      req.method.map cString = some (bytesOf "publish_post") ∧
      req.content .content = some (.bin (first :: rest)) ∧
      req.content .thumbnails = some (.bin [0xA0]) := by
  cases hmessage
  exact ⟨_, rfl, rfl, rfl, rfl⟩

/-- A post can take almost all that Carrier takes. -/
theorem storable_publishing (pi : PostInfo) {first : UInt8} {rest : Bytes}
    (hcontent : pi.content = first :: rest) (hthumbnails : pi.thumbnails = [0xA0])
    (hlength : pi.content.length + 256 ≤ elaMaxAppBulkmsgLen.toNat) :
    Listing.Storable .posts pi := by
  rw [hcontent] at hlength
  have hbulk : elaMaxAppBulkmsgLen.toNat = 5242880 := by
    decide
  have hsized : (publishing (first :: rest)).Sized := sized_publishing (by omega)
  have hdata := length_publishing_le (first :: rest)
  have hwellFormed : (publishing (first :: rest)).WellFormed standard Rpc.objectShape :=
    (Packed.wellFormed_iff rfl).mpr ⟨honest_publishing _, hsized⟩
  obtain ⟨_, _, message, hmessage, hunpack⟩ := hwellFormed
  obtain ⟨req, hunmarshal, hmethod, hreqContent, hreqThumbnails⟩ :=
    unmarshal_publishing first rest hsized hmessage
  refine .inr ⟨"publish_post", List.mem_cons_self, req,
    ⟨_, message, hdata.trans hlength, hunpack, hunmarshal, hmethod⟩, ?_⟩
  simp [hcontent, hthumbnails, hreqContent, hreqThumbnails]

/-- A post that takes one byte more than there is, beside its thumbnails. -/
def oversizedPost (content : Bytes) : PostInfo where
  chanId := 1
  postId := 1
  stat := .available
  cmts := 0
  likes := 0
  createdAt := 0
  updAt := 0
  content := content
  thumbnails := [0xA0]
  hashId := "NA"
  proof := "NA"
  originPostUrl := "NA"

theorem size_oversizedPost (content : Bytes) :
    Listing.size .posts (oversizedPost content) = content.length + 1 := rfl

/-- The first subtraction for the post wraps. -/
theorem oversizedPost_wraps {content : Bytes} (hlength : content.length = 5140481)
    (fetched : Fetched .posts) (hitems : fetched.items = [oversizedPost content]) :
    ¬ Listing.NeverWraps .posts maxContentLen fetched.items := by
  have hlimit : maxContentLen.toNat = 5140480 := by
    decide
  have hrendered : Listing.Rendered .posts fetched.items := by
    simp [Listing.Rendered, hitems, oversizedPost]
  rw [Listing.NeverWraps, Listing.splits_rendered hrendered,
    Listing.neverWraps_iff_affordable, hitems]
  intro hfits
  have hsize : Listing.size .posts (oversizedPost content) ≤ maxContentLen.toNat :=
    hfits _ (List.mem_singleton.mpr rfl)
  rw [size_oversizedPost] at hsize
  omega

theorem not_always_neverWraps :
    ¬ ∀ (listing : Listing) (fetched : Fetched listing),
      (∀ item ∈ fetched.items, listing.Storable item) →
        listing.NeverWraps maxContentLen fetched.items := by
  intro h
  let content : Bytes := 0 :: List.replicate 5140480 0
  have hlength : content.length = 5140481 := by
    rw [List.length_cons, List.length_replicate]
  have hbulk : elaMaxAppBulkmsgLen.toNat = 5242880 := by
    decide
  let fetched : Fetched .posts := ⟨[oversizedPost content], by
    rw [total_cons, total_nil, size_oversizedPost]
    omega⟩
  refine oversizedPost_wraps hlength fetched rfl (h .posts fetched ?_)
  intro item hitem
  have hpost : item = oversizedPost content := List.mem_singleton.mp hitem
  have hcontent : item.content = content := congrArg PostInfo.content hpost
  exact storable_publishing item hcontent (congrArg PostInfo.thumbnails hpost)
    (by rw [hcontent]; omega)

end Storing

end FeedsService.Feeds
