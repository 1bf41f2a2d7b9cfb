import FeedsService.MassData.Store
import FeedsService.Rpc.Answers

/-!
# Who changes the files

A request for mass data comes as a message, or as the head of a session with a body.  Both ways the
loop over the methods asks for the access token before it calls the handler: in a release build
nothing changes outside the cache but the file of a key that the owner sets.
-/

namespace FeedsService.MassData.Host

open FeedsService.Library FeedsService.Library.Paths FeedsService.Rpc FeedsService.Runs

section Requests

variable {Response : Type} (host : Host) (service : Service Response) (msgpack : MsgPack)

/-- What has arrived, and when: the bytes of a message, or of the head of a session, and the
service as they find it. -/
structure Packet where
  data : Bytes
  transport : Transport
  rt : Runtime

/-- The service that a packet finds, with the name drawn for a file in the cache. -/
def Packet.draws (packet : Packet) : Service Response :=
  { service with
    random := packet.rt.random
    checkAccessible := packet.rt.checkAccessible }

/-- A method with who may call it; it returns a code, the response and the body of the result. -/
abbrev HandleMap :=
  List (String × Accessible × (Req → FileM (ℤ × Option Resp × Bytes)))

/-- `set_binary` of both transports; a session has its body in a file already. -/
def setBinaryOf (transport : Transport) (req : Req) : FileM (ℤ × Option Resp) :=
  match transport with
  | .message => host.onSetBinary service req none
  | .session _ => MassDataProcessor.onSetBinary host service req (bodyPath service) none

/-- `normalHandlerMap` of `MassData`, and `mothodHandleMap` of `MassDataProcessor`. -/
def handleMap (transport : Transport) : HandleMap :=
  [("set_binary", .owner, fun req => do
      let (ret, resp) ← setBinaryOf host service transport req
      return (ret, resp, [])),
    ("get_binary", .member, fun req => do ofExcept (host.got service (← get) transport req))]

/-- The loop of `Listener::onDispose` and of `MassDataProcessor::dispose`. -/
def disposeMethods (handleMap : HandleMap) (req : Req) : FileM (ℤ × Option Resp × Bytes) :=
  match handleMap with
  | [] => return (ErrCode.unimplementedError, none, [])
  | it :: rest => do
    let named ← ofExcept (req.named it.1)
    if named then
      let accessToken ← ofExcept (stdString (req.str .tk))
      let ret := service.checkAccessible it.2.1 accessToken
      if ret < 0 then return (ret, none, []) else it.2.2 req
    else disposeMethods rest req

/-- The handler of a request that could be read. -/
def disposeRequest (transport : Transport) (ret : ℤ) (req : Option Req) :
    FileM (ℤ × Option Resp × Bytes) :=
  if ret < 0 then
    pure (ret, none, [])
  else
    match req with
    | none => throw (.fault .nullDereference)
    | some req => disposeMethods service (handleMap host service transport) req

/-- What follows the handler. -/
def packResult (req : Option Req) (result : ℤ × Option Resp × Bytes) : ℤ × Bytes × Bytes :=
  let (ret, data) := packResponse service req result.2.1 result.1
  if ret < 0 then (ret, [], []) else (0, data, result.2.2)

/-- From the bytes of the request to those of the response. -/
def dispose (transport : Transport) (data : Bytes) : FileM (ℤ × Bytes × Bytes) := do
  let (ret, req) ← ofExcept (unpackRequest msgpack service.warns data)
  return packResult service req (← disposeRequest host service transport ret req)

/-- The body of a session is in a file of the cache meanwhile. -/
def receive (packet : Packet) : FileM (ℤ × Bytes × Bytes) :=
  let service := packet.draws service
  match packet.transport with
  | .message => dispose host service msgpack .message packet.data
  | .session body =>
      host.withCacheFile service (bodyPath service) body (ErrCode.fileNotExistsError, [], [])
        (dispose host service msgpack (.session body) packet.data)

def nextFiles (files : Files) (packet : Packet) : Option Files :=
  some (host.receive service msgpack packet files).2

/-- A key is asked to be set with a token that passes. -/
def SetsKey (data : Bytes) (req : Req) : Prop :=
  ∃ ret, unpackRequest msgpack service.warns data = .ok (ret, some req) ∧ ¬ ret < 0 ∧
    req.named "set_binary" = .ok true ∧
      ∃ token, stdString (req.str .tk) = .ok token ∧ ¬ service.checkAccessible .owner token < 0

/-- The owner asks to set a key: the token is accepted as one of the first user. -/
def OwnerSets (packet : Packet) (req : Req) : Prop :=
  ∃ ret, unpackRequest msgpack service.warns packet.data = .ok (ret, some req) ∧ ¬ ret < 0 ∧
    req.named "set_binary" = .ok true ∧
      ∃ token, stdString (req.str .tk) = .ok token ∧
        ∃ uinfo, packet.rt.getUserInfo token = .ok uinfo ∧
          Feeds.userIdIsOwner uinfo.info.uid = true

/-- What the owner sets. -/
def Packet.content (packet : Packet) (req : Req) : Bytes :=
  match packet.transport with
  | .message => req.bin .content
  | .session body => body

/-- The file that the content is put into first. -/
def Packet.cacheFile (packet : Packet) : Path :=
  match packet.transport with
  | .message => massDataCacheFilePath (packet.draws service)
  | .session _ => bodyPath (packet.draws service)

/-- The build is one that asks for the token, the name that was drawn is not in use, and the
owner's key does not lead into the cache. -/
structure Usual (files : Files) (packet : Packet) : Prop where
  release : packet.rt.release = true
  unused : host.find files (packet.cacheFile service) = none
  avoids : ∀ req key, OwnerSets service msgpack packet req → req.str .key = some key →
    host.Avoids service (keyPath service key)

/-- Outside the cache only the file of a key changes that the owner sets, to what the owner
sent. -/
def ChangedByOwner (files : Files) (packet : Packet) (files' : Files) : Prop :=
  ∀ path, host.Avoids service path →
    host.find files' path = host.find files path ∨
      ∃ req key, OwnerSets service msgpack packet req ∧ req.str .key = some key ∧
        host.locate files path = host.locate files (keyPath service key) ∧
          host.find files' path = some (.file (packet.content req))

end Requests

section Reading

variable {α β : Type}

/-- A handler that changes no file. -/
def ReadsOnly (handler : FileM α) : Prop :=
  ∀ files, (handler files).2 = files

theorem ReadsOnly.pure (value : α) : ReadsOnly (pure value) :=
  fun _ => rfl

theorem ReadsOnly.ofExcept (value : Except Stop α) : ReadsOnly (ofExcept value) := by
  intro files
  rw [ofExcept_run]

theorem ReadsOnly.bind {first : FileM α} {second : α → FileM β} (hfirst : ReadsOnly first)
    (hsecond : ∀ value, ReadsOnly (second value)) : ReadsOnly (first >>= second) := by
  intro files
  have hkept := hfirst files
  rw [bind_run]
  generalize first files = result at hkept
  obtain ⟨value, left⟩ := result
  cases value with
  | error stop => exact hkept
  | ok value => exact (hsecond value left).trans hkept

theorem ReadsOnly.eq {handler : FileM α} (h : ReadsOnly handler) :
    handler = fun files => ((handler files).1, files) :=
  funext fun files => Prod.ext rfl (h files)

end Reading

section Disposal

variable {Response : Type} {host : Host} {service : Service Response} {msgpack : MsgPack}
  {transport : Transport} {req : Req} {data : Bytes}

theorem ReadsOnly.disposeMethods {handleMap : HandleMap}
    (h : ∀ it ∈ handleMap, ReadsOnly (it.2.2 req)) :
    ReadsOnly (Host.disposeMethods service handleMap req) := by
  induction handleMap with
  | nil => exact .pure _
  | cons it rest ih =>
      refine .bind (.ofExcept _) fun named => ?_
      split
      · refine .bind (.ofExcept _) fun accessToken => ?_
        dsimp only
        split
        · exact .pure _
        · exact h it List.mem_cons_self
      · exact ih fun it hit => h it (List.mem_cons_of_mem _ hit)

/-- Only `set_binary` changes files, and the owner alone gets there. -/
theorem disposeMethods_cases :
    (req.named "set_binary" = .ok true ∧
      (∃ token, stdString (req.str .tk) = .ok token ∧ ¬ service.checkAccessible .owner token < 0) ∧
        disposeMethods service (handleMap host service transport) req =
          setBinaryOf host service transport req >>= fun set => pure (set.1, set.2, [])) ∨
      ReadsOnly (disposeMethods service (handleMap host service transport) req) := by
  rw [handleMap, disposeMethods]
  cases hnamed : req.named "set_binary" with
  | error stop => exact Or.inr fun _ => rfl
  | ok named =>
      cases named with
      | false =>
          refine Or.inr (ReadsOnly.disposeMethods fun it hit => ?_)
          rw [List.mem_singleton.mp hit]
          exact fun files => ReadsOnly.ofExcept _ files
      | true =>
          cases htoken : stdString (req.str .tk) with
          | error stop => exact Or.inr fun _ => rfl
          | ok token =>
              by_cases haccess : service.checkAccessible .owner token < 0
              · refine Or.inr ?_
                change ReadsOnly (if service.checkAccessible .owner token < 0 then
                  pure (service.checkAccessible .owner token, none, []) else _)
                rw [if_pos haccess]
                exact .pure _
              · refine Or.inl ⟨rfl, ⟨token, rfl, haccess⟩, ?_⟩
                change (if service.checkAccessible .owner token < 0 then _ else
                  setBinaryOf host service transport req >>= fun set => pure (set.1, set.2, [])) = _
                rw [if_neg haccess]

/-- Disposing of a request reads only, or does what a `set_binary` does whose token passes. -/
theorem dispose_cases :
    (∃ req, SetsKey service msgpack data req ∧
      ∃ answered : ℤ × Option Resp → ℤ × Bytes × Bytes,
        dispose host service msgpack transport data =
          setBinaryOf host service transport req >>= fun set => pure (answered set)) ∨
      ReadsOnly (dispose host service msgpack transport data) := by
  rw [dispose]
  cases hunpack : unpackRequest msgpack service.warns data with
  | error stop => exact Or.inr fun _ => rfl
  | ok unpacked =>
      obtain ⟨ret, req⟩ := unpacked
      change _ ∨ ReadsOnly (disposeRequest host service transport ret req >>= fun result =>
        pure (packResult service req result))
      by_cases hret : ret < 0
      · refine Or.inr (ReadsOnly.bind ?_ fun _ => .pure _)
        unfold disposeRequest
        rw [if_pos hret]
        exact .pure _
      · cases req with
        | none =>
            have hread : disposeRequest host service transport ret none =
                throw (.fault .nullDereference) := if_neg hret
            rw [hread]
            exact Or.inr fun _ => rfl
        | some req =>
            have hread : disposeRequest host service transport ret (some req) =
                disposeMethods service (handleMap host service transport) req := if_neg hret
            rw [hread]
            obtain ⟨hnamed, haccess, hsets⟩ | hreads :=
              @disposeMethods_cases _ host service transport req
            · refine Or.inl ⟨req, ⟨ret, hunpack, hret, hnamed, haccess⟩,
                fun set => packResult service (some req) (set.1, set.2, []), ?_⟩
              change disposeRequest host service transport ret (some req) >>= (fun result =>
                pure (packResult service (some req) result)) = _
              rw [hread, hsets, bind_assoc]
              rfl
            · exact Or.inr (hreads.bind fun _ => .pure _)

end Disposal

section Packets

variable {Response : Type} {host : Host} {service : Service Response} {msgpack : MsgPack}
  {files : Files} {packet : Packet} {req : Req}

theorem ReadsOnly.saveBinData {resp : Option Resp} {path : Path} (hkey : req.str .key = none) :
    ReadsOnly (host.saveBinData service req resp path) := by
  rw [Host.saveBinData, hkey]
  refine .bind (.ofExcept _) fun algo => ?_
  split
  · exact .pure _
  · exact fun _ => rfl

/-- What is made of the answer does not matter to the files. -/
theorem withCacheFile_bind_snd {α β : Type} (file : Path) (content : Bytes) (refused : α)
    (refused' : β) (handle : FileM α) (answered : α → β) :
    (host.withCacheFile service file content refused' (handle >>= fun value =>
      pure (answered value)) files).2 =
      (host.withCacheFile service file content refused handle files).2 := by
  rw [withCacheFile, withCacheFile]
  simp only [bind_run]
  rcases host.makeCacheDir service files with ⟨created | created, made⟩
  · rfl
  · cases created with
    | false => rfl
    | true =>
        simp only [Bool.true_eq_false, if_false, bind_run]
        rcases host.append file content made with ⟨appended | appended, written⟩
        · rfl
        · dsimp only
          rcases handle written with ⟨handled | handled, left⟩
          · rfl
          · simp only [pure_run]
            rcases host.remove file left with ⟨removed | removed, rest⟩
            · rfl
            · rfl

/-- A token passes when it is accepted as one of the owner. -/
theorem checkAccessible_owner_iff {rt : Runtime} (hrelease : rt.release = true) (token : Bytes) :
    ¬ rt.checkAccessible .owner token < 0 ↔
      ∃ uinfo, rt.getUserInfo token = .ok uinfo ∧ Feeds.userIdIsOwner uinfo.info.uid = true := by
  unfold Runtime.checkAccessible
  rw [if_pos hrelease]
  split
  · next hanyone => cases hanyone
  · next hinfo _ =>
      refine iff_of_false (fun hnot => hnot ?_) fun ⟨uinfo, h, _⟩ => ?_
      · rcases Runtime.getUserInfo_eq_error hinfo with rfl | rfl
        · decide
        · decide
      · cases hinfo.symm.trans h
  · next hmember _ => cases hmember
  · next uinfo _ hinfo =>
      by_cases howner : Feeds.userIdIsOwner uinfo.info.uid = true
      · rw [if_pos howner]
        exact iff_of_true (lt_irrefl 0) ⟨uinfo, hinfo, howner⟩
      · rw [if_neg howner]
        refine iff_of_false (fun hnot => hnot (by decide)) fun ⟨other, h, howner'⟩ => ?_
        cases hinfo.symm.trans h
        exact howner howner'

theorem setsKey_iff_ownerSets (hrelease : packet.rt.release = true) :
    SetsKey (packet.draws service) msgpack packet.data req ↔
      OwnerSets service msgpack packet req :=
  exists_congr fun _ => and_congr_right fun _ => and_congr_right fun _ => and_congr_right fun _ =>
    exists_congr fun token => and_congr_right fun _ => checkAccessible_owner_iff hrelease token

theorem cacheFile_of_packet (packet : Packet) :
    ∃ name, CacheFile (packet.draws service) (packet.cacheFile service) name := by
  obtain ⟨data, transport, rt⟩ := packet
  cases transport with
  | message =>
      exact ⟨_, rfl, isAbsolute_numbered (by decide), components_numbered (by decide) (by decide)⟩
  | session body =>
      exact ⟨_, rfl, isAbsolute_numbered (by decide), components_numbered (by decide) (by decide)⟩

/-- A packet that is only read, or whose key is missing, spares what is outside the cache. -/
theorem spared_of_readsOnly (hready : host.Ready service files)
    (hfind : host.find files (packet.cacheFile service) = none)
    (hreads : ReadsOnly
      (dispose host (packet.draws service) msgpack packet.transport packet.data)) :
    host.Spared (packet.draws service) files (host.receive service msgpack packet files).2 := by
  have hreadyDraws : host.Ready (packet.draws service) files := ⟨hready.dir, hready.cache⟩
  obtain ⟨name, hfile⟩ := @cacheFile_of_packet _ service packet
  have hfresh := node_eq_none_of_find hreadyDraws hfile hfind
  obtain ⟨data, transport, rt⟩ := packet
  cases transport with
  | message =>
      have hkept : (host.receive service msgpack ⟨data, .message, rt⟩ files).2 = files :=
        hreads files
      rw [hkept]
      exact ⟨hreadyDraws, fun _ _ => rfl⟩
  | session body =>
      obtain ⟨written, -, left, hrun, hspared⟩ := withCacheFile_read hreadyDraws hfile hfresh body
        (ErrCode.fileNotExistsError, [], []) fun files =>
          (dispose host (Packet.draws service ⟨data, .session body, rt⟩) msgpack
            (.session body) data files).1
      rw [← hreads.eq] at hrun
      have hleft : (host.receive service msgpack ⟨data, .session body, rt⟩ files).2 = left :=
        congrArg Prod.snd hrun
      rw [hleft]
      exact hspared

/-- What the owner's `set_binary` does to the files. -/
theorem receive_snd_of_sets {answered : ℤ × Option Resp → ℤ × Bytes × Bytes}
    (hsets : dispose host (packet.draws service) msgpack packet.transport packet.data =
      setBinaryOf host (packet.draws service) packet.transport req >>= fun set =>
        pure (answered set)) :
    (host.receive service msgpack packet files).2 =
      (host.withCacheFile (packet.draws service) (packet.cacheFile service) (packet.content req)
        (ErrCode.fileNotExistsError, none)
        (host.saveBinData (packet.draws service) req none (packet.cacheFile service)) files).2 := by
  obtain ⟨data, transport, rt⟩ := packet
  cases transport with
  | message =>
      rw [receive]
      dsimp only
      rw [hsets, bind_run]
      change _ = (host.onSetBinary _ req none files).2
      rw [setBinaryOf]
      rcases host.onSetBinary (Packet.draws service ⟨data, .message, rt⟩) req none files with
        ⟨set | set, left⟩
      · rfl
      · rfl
  | session body =>
      rw [receive]
      dsimp only
      rw [hsets]
      exact withCacheFile_bind_snd _ _ _ _ _ _

theorem changed_of_spared {left : Files}
    (hspared : host.Spared (packet.draws service) files left) :
    host.Ready service left ∧ ChangedByOwner host service msgpack files packet left := by
  refine ⟨⟨hspared.ready.dir, hspared.ready.cache⟩, fun path hpath => Or.inl ?_⟩
  exact hspared.find_eq hpath

/-- One packet, with what it leaves ready for the next one. -/
theorem receive_changes (hready : host.Ready service files)
    (husual : host.Usual service msgpack files packet) :
    host.Ready service (host.receive service msgpack packet files).2 ∧
      ChangedByOwner host service msgpack files packet
        (host.receive service msgpack packet files).2 := by
  obtain ⟨hrelease, hfind, havoids⟩ := husual
  have hreadyDraws : host.Ready (packet.draws service) files := ⟨hready.dir, hready.cache⟩
  obtain ⟨req, hsetsKey, answered, hsets⟩ | hreads :=
    @dispose_cases _ host (packet.draws service) msgpack packet.transport packet.data
  · have howner := (setsKey_iff_ownerSets hrelease).mp hsetsKey
    rw [receive_snd_of_sets hsets]
    obtain ⟨name, hfile⟩ := @cacheFile_of_packet _ service packet
    have hfresh := node_eq_none_of_find hreadyDraws hfile hfind
    cases hkey : req.str .key with
    | none =>
        have hreads : ReadsOnly (host.saveBinData (packet.draws service) req none
            (packet.cacheFile service)) := ReadsOnly.saveBinData hkey
        obtain ⟨written, -, left, hrun, hspared⟩ := withCacheFile_read hreadyDraws hfile hfresh
          (packet.content req) (ErrCode.fileNotExistsError, none) fun files =>
            (host.saveBinData (packet.draws service) req none (packet.cacheFile service) files).1
        rw [← hreads.eq] at hrun
        rw [hrun]
        exact changed_of_spared hspared
    | some key =>
        have hkeyAvoids : host.Avoids (packet.draws service) (keyPath (packet.draws service) key) :=
          havoids req key howner hkey
        have houtcome := @setOutcome_withCacheFile _ host (packet.draws service) files
          (packet.cacheFile service) name (packet.content req) key req none hreadyDraws hfile hfresh
          hkey hkeyAvoids (ErrCode.fileNotExistsError, none)
        generalize host.withCacheFile (packet.draws service) (packet.cacheFile service)
          (packet.content req) (ErrCode.fileNotExistsError, none)
            (host.saveBinData (packet.draws service) req none (packet.cacheFile service)) files =
              result at houtcome ⊢
        cases houtcome with
        | fails refused spared => exact changed_of_spared spared
        | @succeeds pos left found replaceable node =>
            refine ⟨hready.of_kept (kept_of_replaced hkeyAvoids found replaceable node),
              fun path hpath => ?_⟩
            by_cases hsame : host.locate files path = some pos
            · exact Or.inr ⟨req, key, howner, hkey, hsame.trans found.symm,
                find_replaced hpath hsame replaceable node⟩
            · exact Or.inl (find_of_replaced found replaceable node hpath hsame)
  · exact changed_of_spared (spared_of_readsOnly hready hfind hreads)

/-- In every run of messages and sessions, whatever they hold, the owner alone changes the files. -/
theorem changedByOwner_eachStep (hready : host.Ready service files) (packets : List Packet)
    (husual : EachStep (Performs (nextFiles host service msgpack))
      (fun files packet _ => host.Usual service msgpack files packet) files packets) :
    EachStep (Performs (nextFiles host service msgpack)) (ChangedByOwner host service msgpack)
      files packets := by
  refine eachStep_of_eachStep (fun files packet files' hready hstep husual => ?_) hready husual
  obtain rfl : (host.receive service msgpack packet files).2 = files' := Option.some.inj hstep
  exact receive_changes hready husual

end Packets

/-- The token of the owner, whom the service knows as its first user. -/
def ownersRuntime : Runtime :=
  { readyService with
    reading := { readyService.reading with
      jws := fun _ => ⟨[], some ⟨"did:service", "primary"⟩, "did:service", some "AccessToken", none,
        some 9000, [("uid", .number 1)]⟩ } }

/-- The owner sets the key `a` with the body of a session. -/
def ownersPacket : Packet where
  data :=
    (packMap 4 [packKvStr "version" (some "1.0"), packKvStr "method" (some "set_binary"),
      packKvU64 "id" 1,
      packKvMap "params" 4 [packKvStr "access_token" (some "token"), packKvStr "key" (some "a"),
        packKvStr "algo" (some "None"), packKvStr "checksum" (some "")]]).bytes MsgPack.standard
  transport := .session [1, 2]
  rt := ownersRuntime

theorem changedByOwner_ownersPacket :
    EachStep (Performs (nextFiles newHost calm standardMsgPack))
      (ChangedByOwner newHost calm standardMsgPack) newFiles [ownersPacket] := by
  have hkeys : ((unpackRequest standardMsgPack calm.warns ownersPacket.data).toOption.bind
      fun unpacked => unpacked.2.bind fun req => req.str .key) = some (bytesOf "a" ++ [0]) := by
    decide +kernel
  have havoids : newHost.Avoids calm (keyPath calm (bytesOf "a" ++ [0])) := by
    unfold Host.Avoids
    decide +kernel
  refine changedByOwner_eachStep ready_newFiles [ownersPacket] fun _ _ => ⟨⟨rfl, ?_, ?_⟩, trivial⟩
  · decide +kernel
  · rintro req key ⟨ret, hunpack, -⟩ hkey
    rw [hunpack] at hkeys
    obtain rfl := Option.some.inj (hkey.symm.trans hkeys)
    exact havoids

end FeedsService.MassData.Host
