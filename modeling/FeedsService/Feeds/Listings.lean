import Mathlib.Algebra.Order.BigOperators.Group.List
import FeedsService.Feeds.Rendering
import FeedsService.Library.Chunking

/-!
# Lists that are split into replies

Seven handlers of `feeds.c` split the list that they answer, each with a loop of its
own.  What an item takes from the budget, what the look-ahead asks for and what the
marshaller packs are three expressions that do not agree everywhere: `get_comments`
takes the content only, and `get_liked_data` looks at the item at hand again.
-/

namespace FeedsService.Feeds

open FeedsService.Library FeedsService.Library.Chunking

/-- What Carrier takes as one message: 5 MiB. -/
def elaMaxAppBulkmsgLen : UInt64 :=
  5 * 1024 * 1024

def maxContentLen : UInt64 :=
  elaMaxAppBulkmsgLen - 100 * 1024

/-- The handlers that split their list. -/
inductive Listing
  | myChans
  | chans
  | subChans
  | posts
  | likedPosts
  | likedData
  | cmts
  deriving DecidableEq

namespace Listing

abbrev Item : Listing → Type
  | .myChans => ChanInfo
  | .chans => ChanInfo
  | .subChans => ChanInfo
  | .posts => PostInfo
  | .likedPosts => PostInfo
  | .likedData => LikedInfo
  | .cmts => CmtInfo

end Listing

section Loops

/-- `strlen` -/
def strlen (text : String) : UInt64 :=
  .ofNat text.utf8ByteSize

/-- The loop of the handlers that list channels. -/
def chansLoop : Loop ChanInfo where
  amounts ci := [ci.len]
  needed := ChanInfo.len

def postsLoop : Loop PostInfo where
  amounts pi := [pi.conLen, pi.thuLen]
  needed pi := pi.conLen + pi.thuLen

def likedPostsLoop : Loop PostInfo where
  amounts pi := [pi.conLen]
  needed := PostInfo.conLen

/-- `sizeof(linfo)` is the size of a pointer. -/
def likedDataLoop : Loop LikedInfo where
  amounts li := [8, strlen li.proof, 1, strlen li.user.name, 1, strlen li.user.did, 1]
  needed li := 8 + strlen li.proof + 1 + strlen li.user.name + 1 + strlen li.user.did + 1
  rereads := true

def cmtsLoop : Loop CmtInfo where
  amounts ci := [ci.conLen]
  needed ci := ci.conLen + ci.thuLen

namespace Listing

def loop : (listing : Listing) → Loop listing.Item
  | .myChans => chansLoop
  | .chans => chansLoop
  | .subChans => chansLoop
  | .posts => postsLoop
  | .likedPosts => likedPostsLoop
  | .likedData => likedDataLoop
  | .cmts => cmtsLoop

/-- What the log line of an item renders. -/
def logged : (listing : Listing) → listing.Item → List Out
  | .myChans => fun _ => []
  | .chans => fun _ => []
  | .subChans => fun _ => []
  | .posts => fun pi => [.postStat pi.stat]
  | .likedPosts => fun _ => []
  | .likedData => fun _ => []
  | .cmts => fun ci => [.cmtStat ci.stat]

/-- The replies to a list from the database; none when the service aborts in the log line
of an item or reads past the end of the list. -/
def answers (listing : Listing) (limit : UInt64) (items : List listing.Item) :
    Option (List (Bool × List listing.Item)) :=
  if (items.flatMap listing.logged).any Out.Aborts then
    none
  else
    listing.loop.replies limit items

end Listing

end Loops

section Handlers

variable {α : Type} {loop : Loop α} {limit : UInt64}

/-- The replies of a handler whose loop takes the whole item at once. -/
theorem splitReplies_eq_sent (hrereads : loop.rereads = false) {taken : α → UInt64}
    (htaken : ∀ left item, leftAfter left (loop.amounts item) = left - taken item)
    (chunk : List α) (left : UInt64) (items : List α) :
    splitReplies limit taken loop.needed chunk left items =
      sent (loop.walk limit left chunk items) := by
  induction items generalizing chunk left with
  | nil => rfl
  | cons item rest ih =>
      cases rest with
      | nil => simp [splitReplies, Loop.walk]
      | cons next rest =>
          have hread : loop.read item next = next := by
            rw [Loop.read, hrereads, if_neg Bool.false_ne_true]
          simp only [splitReplies, Loop.walk, hread, htaken, sent_append, sent_subtractions,
            List.nil_append]
          split
          · rw [sent_cons_send, ih]
          · exact ih _ _

theorem listReplies_eq_replies (hrereads : loop.rereads = false) {taken : α → UInt64}
    (htaken : ∀ left item, leftAfter left (loop.amounts item) = left - taken item)
    (items : List α) :
    loop.replies limit items = some (listReplies limit taken loop.needed items) := by
  by_cases hitems : items = []
  · rw [Loop.replies, listReplies, if_pos hitems, if_pos hitems]
  · rw [Loop.replies_eq_sent hitems, listReplies, if_neg hitems,
      splitReplies_eq_sent hrereads htaken]

theorem strlen_succ (text : String) : UInt64.ofNat (text.utf8ByteSize + 1) = strlen text + 1 :=
  UInt64.ofNat_add _ _

theorem likedDataLoop_needed (li : LikedInfo) : likedDataLoop.needed li = li.size := by
  simp only [likedDataLoop, LikedInfo.size, strlen_succ, UInt64.add_assoc]

theorem leftAfter_likedData (left : UInt64) (li : LikedInfo) :
    leftAfter left (likedDataLoop.amounts li) = left - li.size := by
  simp only [leftAfter, likedDataLoop, LikedInfo.size, strlen_succ, List.foldl_cons,
    List.foldl_nil]
  grind

theorem splitLikedData_eq_sent (pending : List LikedInfo) (left : UInt64)
    (linfos : List LikedInfo) :
    splitLikedData limit pending left linfos =
      sent (likedDataLoop.walk limit left pending linfos) := by
  induction linfos generalizing pending left with
  | nil => rfl
  | cons li rest ih =>
      cases rest with
      | nil => simp [splitLikedData, Loop.walk]
      | cons next rest =>
          have hread : likedDataLoop.read li next = li := rfl
          simp only [splitLikedData, Loop.walk, hread, likedDataLoop_needed,
            leftAfter_likedData, sent_append, sent_subtractions, List.nil_append]
          split
          · rw [sent_cons_send, ih]
          · exact ih _ _

/-- The replies of a handler are those of its loop. -/
theorem postsLoop_replies (pinfos : List PostInfo) :
    postsLoop.replies limit pinfos = some (listReplies limit (fun pi => pi.conLen + pi.thuLen)
      (fun pi => pi.conLen + pi.thuLen) pinfos) := by
  refine listReplies_eq_replies rfl (fun left pi => ?_) pinfos
  simp only [leftAfter, postsLoop, List.foldl_cons, List.foldl_nil]
  grind

theorem cmtsLoop_replies (cinfos : List CmtInfo) :
    cmtsLoop.replies limit cinfos =
      some (listReplies limit CmtInfo.conLen (fun ci => ci.conLen + ci.thuLen) cinfos) :=
  listReplies_eq_replies rfl (fun _ _ => rfl) cinfos

theorem chansLoop_replies (cinfos : List ChanInfo) :
    chansLoop.replies limit cinfos =
      some (listReplies limit ChanInfo.len ChanInfo.len cinfos) :=
  listReplies_eq_replies rfl (fun _ _ => rfl) cinfos

theorem likedPostsLoop_replies (pinfos : List PostInfo) :
    likedPostsLoop.replies limit pinfos =
      some (listReplies limit PostInfo.conLen PostInfo.conLen pinfos) :=
  listReplies_eq_replies rfl (fun _ _ => rfl) pinfos

theorem likedDataLoop_replies (linfos : List LikedInfo) :
    likedDataLoop.replies limit linfos = some (if linfos = [] then [(true, [])]
      else splitLikedData limit [] limit linfos) := by
  by_cases hlinfos : linfos = []
  · rw [Loop.replies, if_pos hlinfos, if_pos hlinfos]
  · rw [Loop.replies_eq_sent hlinfos, if_neg hlinfos, splitLikedData_eq_sent]

end Handlers

section Sizes

namespace Listing

/-- The bytes that the marshaller puts into the reply for an item. -/
def payload : (listing : Listing) → listing.Item → ℕ
  | .myChans => fun ci => ci.avatar.length
  | .chans => fun ci => ci.avatar.length
  | .subChans => fun ci => ci.avatar.length
  | .posts => fun pi =>
      if pi.stat = .deleted then 0 else pi.content.length + pi.thumbnails.length
  | .likedPosts => fun pi => pi.content.length
  | .likedData => fun li =>
      li.proof.utf8ByteSize + li.user.name.utf8ByteSize + li.user.did.utf8ByteSize
  | .cmts => fun ci =>
      if ci.stat = .available then ci.content.length + ci.thumbnails.length else 0

/-- What an item takes in memory, as far as the loops ask for it. -/
def size : (listing : Listing) → listing.Item → ℕ
  | .myChans => fun ci => ci.avatar.length
  | .chans => fun ci => ci.avatar.length
  | .subChans => fun ci => ci.avatar.length
  | .posts => fun pi => pi.content.length + pi.thumbnails.length
  | .likedPosts => fun pi => pi.content.length
  | .likedData => fun li =>
      8 + (li.proof.utf8ByteSize + 1) + (li.user.name.utf8ByteSize + 1) +
        (li.user.did.utf8ByteSize + 1)
  | .cmts => fun ci => ci.content.length + ci.thumbnails.length

/-- What the loop takes from the budget for an item. -/
def taken : (listing : Listing) → listing.Item → ℕ
  | .cmts => fun ci => ci.content.length
  | listing => listing.size

end Listing

/-- The items that a query returned, all of them in memory. -/
structure Fetched (listing : Listing) where
  items : List listing.Item
  inMemory : total listing.size items < 2 ^ 63

theorem size_le_total {listing : Listing} {items : List listing.Item} {item : listing.Item}
    (hitem : item ∈ items) : listing.size item ≤ total listing.size items :=
  List.single_le_sum (fun _ _ => Nat.zero_le _) _ (List.mem_map_of_mem hitem)

theorem Fetched.size_lt {listing : Listing} (fetched : Fetched listing) {item : listing.Item}
    (hitem : item ∈ fetched.items) : listing.size item < 2 ^ 63 :=
  Nat.lt_of_le_of_lt (size_le_total hitem) fetched.inMemory

namespace Listing

variable {listing : Listing} {item : listing.Item}

/-- No size of an item in memory wraps. -/
theorem loop_taken (hsize : listing.size item < 2 ^ 63) :
    listing.loop.taken item = listing.taken item := by
  cases listing <;>
    simp [Loop.taken, loop, taken, size, chansLoop, postsLoop, likedPostsLoop, likedDataLoop,
      cmtsLoop, ChanInfo.len, PostInfo.conLen, PostInfo.thuLen, CmtInfo.conLen, strlen]
      at hsize ⊢ <;>
    omega

theorem loop_needed (hsize : listing.size item < 2 ^ 63) :
    (listing.loop.needed item).toNat = listing.size item := by
  cases listing <;>
    simp [loop, size, chansLoop, postsLoop, likedPostsLoop, likedDataLoop, cmtsLoop,
      ChanInfo.len, PostInfo.conLen, PostInfo.thuLen, CmtInfo.conLen, CmtInfo.thuLen, strlen]
      at hsize ⊢ <;>
    omega

theorem taken_le_size (item : listing.Item) : listing.taken item ≤ listing.size item := by
  cases listing <;> simp [taken, size]

/-- The marshaller packs no more than the loop takes, but for comments. -/
theorem payload_le_taken (hcmts : listing ≠ .cmts) (item : listing.Item) :
    listing.payload item ≤ listing.taken item := by
  cases listing with
  | posts =>
      simp only [payload, taken, size]
      split <;> omega
  | likedData =>
      simp only [payload, taken, size]
      omega
  | cmts => exact absurd rfl hcmts
  | _ => exact Nat.le_refl _

theorem loop_rereads (hlikedData : listing ≠ .likedData) : listing.loop.rereads = false := by
  cases listing <;> first | rfl | exact absurd rfl hlikedData

end Listing

end Sizes

section Lossless

namespace Listing

/-- Every status that the log line of an item names has a text. -/
def Rendered : (listing : Listing) → List listing.Item → Prop
  | .posts => fun pinfos => ∀ pi ∈ pinfos, pi.stat ≠ .wrongStat
  | .cmts => fun cinfos => ∀ ci ∈ cinfos, ci.stat ≠ .blocked ∧ ci.stat ≠ .wrongStat
  | _ => fun _ => True

theorem logged_aborts_iff (listing : Listing) (items : List listing.Item) :
    (items.flatMap listing.logged).any Out.Aborts = false ↔ listing.Rendered items := by
  cases listing with
  | posts =>
      simp only [List.any_flatMap, logged, Rendered, List.any_eq_false, List.any_cons,
        List.any_nil, Bool.or_false, Out.Aborts, postStatStr_isNone]
  | cmts =>
      simp only [List.any_flatMap, logged, Rendered, List.any_eq_false, List.any_cons,
        List.any_nil, Bool.or_false, Out.Aborts, cmtStatStr_isNone, not_or]
  | _ => simp [logged, Rendered]

theorem answers_rendered {listing : Listing} {items : List listing.Item}
    (hrendered : listing.Rendered items) (limit : UInt64) :
    listing.answers limit items = listing.loop.replies limit items := by
  rw [answers, (listing.logged_aborts_iff items).mpr hrendered, if_neg Bool.false_ne_true]

/-- The log lines come before the first reply. -/
theorem answers_not_rendered {listing : Listing} {items : List listing.Item}
    (hrendered : ¬ listing.Rendered items) (limit : UInt64) :
    listing.answers limit items = none := by
  rw [← logged_aborts_iff, Bool.not_eq_false] at hrendered
  rw [answers, if_pos hrendered]

/-- A list is answered without loss exactly when each of its items can be logged. -/
theorem answers_iff_rendered (listing : Listing) (limit : UInt64)
    (items : List listing.Item) :
    (∃ chunks, listing.answers limit items = some chunks ∧ Lossless items chunks) ↔
      listing.Rendered items := by
  constructor
  · rintro ⟨chunks, hchunks, _⟩
    by_contra hrendered
    rw [answers_not_rendered hrendered] at hchunks
    cases hchunks
  · intro hrendered
    rw [answers_rendered hrendered]
    exact Loop.replies_lossless items

end Listing

/-- A comment that is blocked while nobody is there to be notified. -/
def blockingQuietly : List Event :=
  let ui : UserInfo := ⟨1, "did:owner", "owner", "NA", none, none⟩
  let owner : Ctx :=
    { «from» := "owner"
      tsxId := 1
      didIsReady := true
      now := 0
      uinfo := some ui
      maxContentLen := maxContentLen }
  [.signIn ui 0 1, .request owner (.createChan ⟨"news", "all the news", [1], "NA", "NA"⟩),
    .request owner (.pubPost 1 ⟨[1], [0xA0], "NA", "NA", "NA"⟩),
    .request owner (.postCmt 1 1 0 ⟨[2], [0xA0], "NA", "NA"⟩),
    .request owner (.blockCmt 1 1 1)]

theorem not_always_answered :
    ¬ ∀ (listing : Listing) (items : List listing.Item),
      ∃ chunks, listing.answers maxContentLen items = some chunks ∧ Lossless items chunks := by
  intro h
  obtain ⟨chunks, hchunks, _⟩ := h .cmts
    ((dbIterCmts (perform (.start Db.init) blockingQuietly).db 1 1 ⟨.none, 0, 0, 0⟩).getD [])
  have haborts : (((dbIterCmts (perform (.start Db.init) blockingQuietly).db 1 1
      ⟨.none, 0, 0, 0⟩).getD []).flatMap (Listing.logged .cmts)).any Out.Aborts = true := by
    decide +kernel
  rw [Listing.answers, if_pos haborts] at hchunks
  cases hchunks

end Lossless

section Limit

namespace Listing

/-- No reply of two or more items is larger than the limit. -/
def SendsWithin (listing : Listing) (limit : UInt64) (items : List listing.Item) : Prop :=
  ∀ chunks ∈ listing.answers limit items, ∀ reply ∈ chunks,
    2 ≤ reply.2.length → total listing.payload reply.2 ≤ limit.toNat

/-- The items from the first one on that is larger than the limit. -/
def oversized (listing : Listing) (limit : UInt64) (items : List listing.Item) :
    List listing.Item :=
  items.dropWhile fun item => listing.size item ≤ limit.toNat

/-- When the chunks stay within the limit.  Where the look-ahead asks for what is taken
from the next item, only an item that is larger than the limit does harm, and takes the
rest of the list into its reply.  In the two other loops every item that joins a reply
has to fit. -/
def Bounded (limit : UInt64) : (listing : Listing) → List listing.Item → Prop
  | .likedData => fun linfos =>
      likedDataLoop.JoinsFit limit (Listing.payload .likedData) [] linfos
  | .cmts => fun cinfos => cmtsLoop.JoinsFit limit (Listing.payload .cmts) [] cinfos
  | listing => fun items =>
      (listing.oversized limit items).length ≤ 1 ∨
        total listing.payload (listing.oversized limit items) ≤ limit.toNat

theorem total_taken_le (listing : Listing) (fetched : Fetched listing) :
    total listing.loop.taken fetched.items ≤ total listing.size fetched.items := by
  refine List.sum_le_sum fun item hitem => ?_
  rw [loop_taken (fetched.size_lt hitem)]
  exact taken_le_size item

theorem sendsWithin_iff_joinsFit (listing : Listing) (limit : UInt64)
    (fetched : Fetched listing) (hrendered : listing.Rendered fetched.items) :
    listing.SendsWithin limit fetched.items ↔
      listing.loop.JoinsFit limit listing.payload [] fetched.items := by
  rw [SendsWithin, answers_rendered hrendered]
  by_cases hitems : fetched.items = []
  · simp [Loop.replies, hitems, Loop.JoinsFit]
  · have hroom : ∀ item ∈ fetched.items,
        total listing.loop.taken ([] ++ fetched.items) + (listing.loop.needed item).toNat <
          2 ^ 64 := by
      intro item hitem
      have htaken := listing.total_taken_le fetched
      have hneeded := size_le_total hitem
      have hmemory := fetched.inMemory
      rw [List.nil_append, loop_needed (fetched.size_lt hitem)]
      omega
    have hsent : _ ↔ _ ∧ listing.loop.JoinsFit limit listing.payload [] fetched.items :=
      Loop.sent_within listing.payload [] fetched.items hroom
    rw [total_nil, sub_ofNat_zero] at hsent
    rw [Loop.replies_eq_sent hitems]
    simpa using hsent

/-- Where the look-ahead asks for what is taken from the next item. -/
theorem joinsFit_iff_oversized (listing : Listing) (hlikedData : listing ≠ .likedData)
    (hcmts : listing ≠ .cmts) (limit : UInt64) (fetched : Fetched listing) :
    listing.loop.JoinsFit limit listing.payload [] fetched.items ↔
      (listing.oversized limit fetched.items).length ≤ 1 ∨
        total listing.payload (listing.oversized limit fetched.items) ≤ limit.toNat := by
  have htaken : listing.taken = listing.size := by
    cases listing <;> first | rfl | exact absurd rfl hcmts
  have hloop : ∀ item ∈ fetched.items, listing.loop.taken item = listing.size item :=
    fun item hitem => by rw [loop_taken (fetched.size_lt hitem), htaken]
  have hdrop : (fetched.items.dropWhile fun item => listing.loop.taken item ≤ limit.toNat) =
      listing.oversized limit fetched.items :=
    dropWhile_congr fun item hitem => by rw [hloop item hitem]
  rw [← hdrop]
  refine Loop.joinsFit_covered (loop_rereads hlikedData) [] fetched.items ?_ ?_ (Nat.le_refl 0)
    fun h => absurd rfl h
  · intro item hitem
    rw [hloop item hitem, loop_needed (fetched.size_lt hitem)]
  · intro item hitem
    rw [hloop item hitem, ← htaken]
    exact payload_le_taken hcmts item

theorem joinsFit_iff_bounded (listing : Listing) (limit : UInt64)
    (fetched : Fetched listing) :
    listing.loop.JoinsFit limit listing.payload [] fetched.items ↔
      Bounded limit listing fetched.items := by
  cases listing with
  | likedData => rfl
  | cmts => rfl
  | _ => exact joinsFit_iff_oversized _ (by decide) (by decide) limit fetched

/-- The replies of several items stay within the limit exactly when the list is bounded
for its loop, or is not answered at all. -/
theorem sendsWithin_iff_bounded (listing : Listing) (limit : UInt64)
    (fetched : Fetched listing) :
    listing.SendsWithin limit fetched.items ↔
      (listing.Rendered fetched.items → Bounded limit listing fetched.items) := by
  by_cases hrendered : listing.Rendered fetched.items
  · rw [sendsWithin_iff_joinsFit listing limit fetched hrendered, joinsFit_iff_bounded,
      forall_prop_of_true hrendered]
  · rw [SendsWithin, answers_not_rendered hrendered]
    simp [hrendered]

end Listing

/-- A comment of one byte with its thumbnails. -/
def illustratedCmt (thumbnails : Bytes) : CmtInfo where
  chanId := 1
  postId := 1
  cmtId := 1
  stat := .available
  user := ⟨1, "did:owner", "owner", "NA", none, none⟩
  replyToCmt := 0
  createdAt := 0
  updAt := 0
  likes := 0
  content := [1]
  thumbnails := thumbnails
  hashId := "NA"
  proof := "NA"

/-- Two comments with large thumbnails go out in one reply: the loop takes two bytes from
the budget for them. -/
theorem illustrated_exceed (thumbnails : Bytes) (hlarge : thumbnails.length = 3000000)
    (fetched : Fetched .cmts)
    (hitems : fetched.items = [illustratedCmt thumbnails, illustratedCmt thumbnails]) :
    ¬ Listing.SendsWithin .cmts maxContentLen fetched.items := by
  have hrendered : Listing.Rendered .cmts fetched.items := by
    simp [Listing.Rendered, hitems, illustratedCmt]
  rw [Listing.sendsWithin_iff_joinsFit .cmts maxContentLen fetched hrendered, hitems]
  have hsize : Listing.size .cmts (illustratedCmt thumbnails) = 3000001 := by
    simp [Listing.size, illustratedCmt, hlarge]
  have hpayload : Listing.payload .cmts (illustratedCmt thumbnails) = 3000001 := by
    simp [Listing.payload, illustratedCmt, hlarge]
  have hlimit : maxContentLen.toNat = 5140480 := by
    decide
  have htaken : (Listing.loop .cmts).taken (illustratedCmt thumbnails) = 1 := by
    rw [Listing.loop_taken (by omega)]
    rfl
  have hneeded : ((Listing.loop .cmts).needed (illustratedCmt thumbnails)).toNat = 3000001 := by
    rw [Listing.loop_needed (by omega), hsize]
  have hjoins : (Listing.loop .cmts).Joins maxContentLen [] (illustratedCmt thumbnails)
      (illustratedCmt thumbnails) := by
    refine .inr ⟨?_, ?_⟩
    · simp [htaken, hlimit]
    · rw [Loop.read, ite_self, hneeded]
      simp [htaken, hlimit]
  intro hfits
  simp only [Loop.JoinsFit, if_pos hjoins, List.nil_append, total_cons, total_nil,
    hpayload, hlimit] at hfits
  omega

theorem not_always_sendsWithin :
    ¬ ∀ (listing : Listing) (fetched : Fetched listing),
      listing.SendsWithin maxContentLen fetched.items := by
  intro h
  let thumbnails : Bytes := List.replicate 3000000 0
  have hlarge : thumbnails.length = 3000000 := List.length_replicate
  refine illustrated_exceed thumbnails hlarge
    ⟨[illustratedCmt thumbnails, illustratedCmt thumbnails], ?_⟩ rfl (h .cmts _)
  simp [total_cons, total_nil, Listing.size, illustratedCmt, hlarge]

end Limit

end FeedsService.Feeds
