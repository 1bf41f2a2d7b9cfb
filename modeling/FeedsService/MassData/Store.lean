import FeedsService.Library.Runs
import FeedsService.MassData.Caching

/-!
# The store of mass data

The requests of both transports, one after the other, against a map from keys to the contents
that were set last.
-/

namespace FeedsService.MassData

open FeedsService.Library FeedsService.Library.Paths FeedsService.Rpc FeedsService.Runs

section Calls

/-- How a request arrives; a session brings a body besides. -/
inductive Transport
  | message
  | session (body : Bytes)
  deriving DecidableEq

inductive Method
  | setBinary | getBinary
  deriving DecidableEq

/-- A request as its parser leaves it, with a key. -/
structure Call where
  method : Method
  transport : Transport
  req : Req
  /-- Drawn for the name of the file in the cache. -/
  random : UInt32
  key : Bytes
  hkey : req.str .key = some key

def Call.content (call : Call) : Bytes :=
  match call.transport with
  | .message => call.req.bin .content
  | .session body => body

variable {Response : Type}

def Call.draws (call : Call) (service : Service Response) : Service Response :=
  { service with random := call.random }

/-- The files, and for each key the content of the last `set_binary` that succeeded. -/
structure World where
  files : Files
  stored : Bytes → Option Bytes

end Calls

namespace Host

section Requests

variable {Response : Type} (host : Host) (service : Service Response)

def setBinary (transport : Transport) (req : Req) : FileM (ℤ × Option Resp) :=
  match transport with
  | .message => host.onSetBinary service req none
  | .session body =>
      host.withCacheFile service (bodyPath service) body (ErrCode.fileNotExistsError, none)
        (MassDataProcessor.onSetBinary host service req (bodyPath service) none)

/-- What `get_binary` returns while the files are these, and the body that a session sends. -/
def got (files : Files) (transport : Transport) (req : Req) :
    Except Stop (ℤ × Option Resp × Bytes) :=
  match transport with
  | .message => do
      let (ret, resp) ← host.onGetBinary service files req none
      return (ret, resp, [])
  | .session _ => do
      let (ret, resp, resultBodyPath) ← MassDataProcessor.onGetBinary host service files req none
      let body ← host.sentBody files resultBodyPath
      return (ret, resp, body)

def getBinary (transport : Transport) (req : Req) : FileM (ℤ × Option Resp × Bytes) :=
  match transport with
  | .message => fun files => (host.got service files .message req, files)
  | .session body =>
      host.withCacheFile service (bodyPath service) body (ErrCode.fileNotExistsError, none, [])
        fun files => (host.got service files (.session body) req, files)

def succeeds (result : Except Stop (ℤ × Option Resp)) : Bool :=
  match result with
  | .ok (ret, _) => ret = 0
  | .error _ => false

def step (w : World) (call : Call) : World :=
  match call.method with
  | .setBinary =>
      let after := host.setBinary (call.draws service) call.transport call.req w.files
      { files := after.2
        stored :=
          if succeeds after.1 then Function.update w.stored call.key (some call.content)
          else w.stored }
  | .getBinary =>
      { w with
        files := (host.getBinary (call.draws service) call.transport call.req w.files).2 }

def Step (w : World) (call : Call) (w' : World) : Prop :=
  host.step service w call = w'

def answer (w : World) (call : Call) : Except Stop (ℤ × Option Resp × Bytes) :=
  (host.getBinary (call.draws service) call.transport call.req w.files).1

variable {host service} {files files' : Files} {transport : Transport} {req : Req} {key : Bytes}

/-- The answer about a file, without its content. -/
def loaded (req : Req) (key : Bytes) (content : Bytes) : Option Resp :=
  some (.getBinary req.tsxId (cString key) (bytesOf "None") [] content)

theorem loadBinData_on (hkey : req.str .key = some key) :
    loadBinData (host.on service files) req none =
      if (host.find files (keyPath service key)).isSome then
        .ok (0, loaded req key [], keyPath service key)
      else .ok (ErrCode.fileNotExistsError, none, []) := by
  have hfollow : follow (req.str .key) = .ok (cString key) := by rw [hkey, follow]
  simp only [loadBinData, hfollow, on, fileSystem, ok_bind, orThrow]
  by_cases hfound : (host.find files (keyPath service key)).isSome = true
  · rw [if_pos hfound]
    exact if_neg (by rw [← keyPath, hfound]; decide)
  · rw [if_neg hfound]
    exact if_pos (Bool.eq_false_iff.mpr hfound)

theorem sentBody_congr {path : Path} (hfind : host.find files' path = host.find files path) :
    host.sentBody files' path = host.sentBody files path := by
  simp only [sentBody, fileSystem, hfind]
  rfl

/-- What `get_binary` returns depends on the file of the key. -/
theorem got_congr (hkey : req.str .key = some key)
    (hfind : host.find files' (keyPath service key) = host.find files (keyPath service key)) :
    host.got service files' transport req = host.got service files transport req := by
  have hload : loadBinData (host.on service files') req none =
      loadBinData (host.on service files) req none := by
    rw [loadBinData_on hkey, loadBinData_on hkey, hfind]
  cases transport with
  | message =>
      rw [got, got, onGetBinary, onGetBinary, Rpc.onGetBinary, Rpc.onGetBinary, hload,
        loadBinData_on hkey]
      split
      · simp only [ok_bind, on, fileSystem, hfind]
      · rfl
  | session body =>
      rw [got, got, MassDataProcessor.onGetBinary, MassDataProcessor.onGetBinary, hload,
        loadBinData_on hkey]
      split
      · simp only [ok_bind, sentBody_congr hfind]
      · rfl

/-- What `get_binary` answers when it returns the content. -/
def delivered (transport : Transport) (req : Req) (key content : Bytes) :
    Except Stop (ℤ × Option Resp × Bytes) :=
  match transport with
  | .message => .ok (0, loaded req key content, [])
  | .session _ => .ok (0, loaded req key [], content)

/-- A message is not answered with a content above 4 MiB. -/
def answered (transport : Transport) (req : Req) (key content : Bytes) :
    Except Stop (ℤ × Option Resp × Bytes) :=
  if transport = .message ∧ maxContentSize < content.length then
    .ok (ErrCode.sizeOverflowError, loaded req key [], [])
  else
    delivered transport req key content

/-- The empty path leads to the working directory. -/
theorem ne_nil_of_file {path : Path} {content : Bytes}
    (hfile : host.find files path = some (.file content)) : path ≠ [] := by
  rintro rfl
  obtain ⟨pos, hpos, hnode⟩ := Option.bind_eq_some_iff.mp hfile
  have hlocate : files.locate host.cwd ([] ++ [.stay]) = some pos := hpos
  have hdir := FileTree.isDir_of_locate (by intro name hname; cases hname) hlocate
  rw [FileTree.isDir_iff, hnode] at hdir
  cases hdir

theorem got_of_file {content : Bytes} (hkey : req.str .key = some key)
    (hfile : host.find files (keyPath service key) = some (.file content)) :
    host.got service files transport req = answered transport req key content := by
  have hload : loadBinData (host.on service files) req none =
      .ok (0, loaded req key [], keyPath service key) := by
    rw [loadBinData_on hkey, hfile]
    rfl
  cases transport with
  | message =>
      rw [got, onGetBinary, Rpc.onGetBinary, hload]
      simp only [ok_bind, on, fileSystem, hfile, orThrow, answered, true_and, lt_irrefl, if_false,
        List.take_length]
      split
      · rfl
      · rfl
  | session body =>
      rw [got, MassDataProcessor.onGetBinary, hload]
      have hthere : ¬ (keyPath service key = [] ∨
          some (some (Node.file content)).isSome = some false) :=
        not_or.mpr ⟨ne_nil_of_file hfile, by simp⟩
      simp only [ok_bind, sentBody, fileSystem, hfile, orThrow, List.take_length, if_neg hthere]
      rfl

end Requests

section Laws

variable {Response : Type} (host : Host) (service : Service Response)

/-- A key names a file by the last component of its path. -/
def Names (key : Bytes) (pos : List Bytes) : Prop :=
  (∃ front name, components (keyPath service key) = front ++ [.down name]) ∧
    position host.cwd (keyPath service key) = pos

/-- Keys of which no two name the same file, and none leads into the cache. -/
structure Separate (keys : Bytes → Prop) : Prop where
  apart : ∀ key key' pos, keys key → keys key' → host.Names service key pos →
    host.Names service key' pos → key = key'
  avoids : ∀ key, keys key → host.Avoids service (keyPath service key)

/-- The file that the request has in the cache. -/
def cacheFile (call : Call) : Path :=
  match call.transport with
  | .message => massDataCacheFilePath (call.draws service)
  | .session _ => bodyPath (call.draws service)

/-- The name that was drawn is not in use; to get content by a message needs no file. -/
def Fresh (w : World) (call : Call) : Prop :=
  call.method = .getBinary ∧ call.transport = .message ∨
    host.find w.files (cacheFile service call) = none

/-- The store is a map on the keys: what is got is what was set last, and setting one key does
not change what is got for another one. -/
structure IsMap (keys : Bytes → Prop)
    (expected : Transport → Req → Bytes → Bytes → Except Stop (ℤ × Option Resp × Bytes))
    (w : World) (call : Call) (w' : World) : Prop where
  get : call.method = .getBinary → ∀ content, w.stored call.key = some content →
    host.answer service w call = expected call.transport call.req call.key content
  set : call.method = .setBinary → ∀ transport req key, req.str .key = some key → keys key →
    key ≠ call.key →
      host.got service w'.files transport req = host.got service w.files transport req

/-- The files hold what the map says. -/
structure Holds (keys : Bytes → Prop) (w : World) : Prop where
  ready : host.Ready service w.files
  content : ∀ key content, keys key → w.stored key = some content →
    host.find w.files (keyPath service key) = some (.file content)

variable {host service} {files : Files} {key : Bytes}

theorem names_of_locate {pos : List Bytes}
    (hpath : host.locate files (keyPath service key) = some pos)
    (hpos : files.isDir pos = false) : host.Names service key pos := by
  refine ⟨?_, (eq_position_of_locate hpath).symm⟩
  rcases List.eq_nil_or_concat (components (keyPath service key)) with hnil | ⟨front, last, hlast⟩
  · rw [components, List.map_eq_nil_iff] at hnil
    exact absurd hnil (List.splitOnP_ne_nil _ _)
  · rw [List.concat_eq_append] at hlast
    cases hname : last with
    | down name => exact ⟨front, name, hname ▸ hlast⟩
    | stay | up =>
        rw [locate, hlast, hname] at hpath
        have hdir := FileTree.isDir_of_locate (by intro name h; cases h) hpath
        rw [hpos] at hdir
        cases hdir

variable {call : Call} {keys : Bytes → Prop} {w : World}

/-- The name of the file that the request has in the cache. -/
def cacheName (call : Call) : Bytes :=
  match call.transport with
  | .message => numbered "massdata-cache-" call.random
  | .session _ => numbered "session-bodydata-" call.random

theorem cacheFile_of_call (call : Call) :
    CacheFile service (cacheFile service call) (cacheName call) := by
  rw [cacheFile, cacheName]
  cases call.transport with
  | message =>
      exact ⟨rfl, isAbsolute_numbered (by decide), components_numbered (by decide) (by decide)⟩
  | session body =>
      exact ⟨rfl, isAbsolute_numbered (by decide), components_numbered (by decide) (by decide)⟩

/-- A file that is not found in the cache is not there. -/
theorem node_eq_none_of_find {file : Path} {name : Bytes} (hready : host.Ready service files)
    (hfile : CacheFile service file name) (hfind : host.find files file = none) :
    files.node (host.cachePos service ++ [name]) = none := by
  by_cases hdir : files.node (host.cachePos service) = some .dir
  · have hbase : host.base service files = files.node := by
      rw [base, ← hdir, Function.update_eq_self]
    have hkept : ∀ step, host.base service files step = some .dir →
        files.node step = some .dir := by
      intro step hstep
      rwa [hbase] at hstep
    rw [← hfind, find_eq_of_locate (hfile.locate hready hkept)]
  · cases hnode : files.node (host.cachePos service ++ [name]) with
    | none => rfl
    | some node =>
        exact absurd (files.parent _ _ (by rw [hnode]; rfl)) hdir

theorem setOutcome_of_call (hready : host.Ready service files)
    (hfresh : host.find files (cacheFile service call) = none)
    (havoids : host.Avoids service (keyPath service call.key)) :
    host.SetOutcome (call.draws service) files call.content call.req call.key
      (host.setBinary (call.draws service) call.transport call.req files) := by
  have hnone := node_eq_none_of_find hready (cacheFile_of_call call) hfresh
  have hreadyDraws : host.Ready (call.draws service) files := ⟨hready.dir, hready.cache⟩
  have hfile : CacheFile (call.draws service) _ _ := cacheFile_of_call call
  obtain ⟨method, transport, req, random, key, hkey⟩ := call
  cases transport with
  | message => exact setOutcome_withCacheFile hreadyDraws hfile hnone hkey havoids _
  | session body => exact setOutcome_withCacheFile hreadyDraws hfile hnone hkey havoids _

/-- What a request for content sees and leaves differs from what was there in the cache only. -/
theorem getBinary_of_call (hready : host.Ready service w.files) (hfresh : Fresh host service w call)
    (hget : call.method = .getBinary) :
    ∃ seen left, host.getBinary (call.draws service) call.transport call.req w.files =
        (host.got (call.draws service) seen call.transport call.req, left) ∧
      host.Spared (call.draws service) w.files seen ∧
      host.Spared (call.draws service) w.files left := by
  have hreadyDraws : host.Ready (call.draws service) w.files := ⟨hready.dir, hready.cache⟩
  have hfile : CacheFile (call.draws service) _ _ := cacheFile_of_call call
  obtain ⟨method, transport, req, random, key, hkey⟩ := call
  cases transport with
  | message =>
      exact ⟨w.files, w.files, rfl, ⟨hreadyDraws, fun _ _ => rfl⟩, hreadyDraws, fun _ _ => rfl⟩
  | session body =>
      have hnone := node_eq_none_of_find hreadyDraws hfile
        (hfresh.resolve_left fun h => nomatch h.2)
      obtain ⟨seen, hseen, left, hrun, hleft⟩ := withCacheFile_read hreadyDraws hfile hnone body
        (ErrCode.fileNotExistsError, none, []) _
      exact ⟨seen, left, hrun, hseen.spared hreadyDraws, hleft⟩

theorem step_of_refused (hset : call.method = .setBinary)
    {after : Except Stop (ℤ × Option Resp) × Files}
    (hafter : host.setBinary (call.draws service) call.transport call.req w.files = after)
    (hrefused : ∀ answered, after.1 ≠ .ok (0, answered)) :
    host.step service w call = ⟨after.2, w.stored⟩ := by
  have hfails : succeeds after.1 = false := by
    cases hresult : after.1 with
    | error stop => rfl
    | ok returned =>
        rw [succeeds, decide_eq_false_iff_not]
        intro hzero
        exact hrefused returned.2 (by rw [hresult, ← hzero])
  rw [step, hset]
  simp only [hafter, hfails, if_neg Bool.false_ne_true]

theorem step_of_saved (hset : call.method = .setBinary) {left : Files}
    (hafter : host.setBinary (call.draws service) call.transport call.req w.files =
      (.ok (saved call.req call.key), left)) :
    host.step service w call =
      ⟨left, Function.update w.stored call.key (some call.content)⟩ := by
  rw [step, hset]
  simp only [hafter]
  exact congrArg (World.mk left) (if_pos rfl)

theorem stored_step (hset : call.method = .setBinary)
    (hsucceeds : succeeds
      (host.setBinary (call.draws service) call.transport call.req w.files).1 = true) :
    (host.step service w call).stored =
      Function.update w.stored call.key (some call.content) := by
  rw [step, hset]
  exact if_pos hsucceeds

/-- Files that are spared obey the map as it was. -/
theorem holds_of_spared {left : Files} (hseparate : host.Separate service keys)
    (hholds : host.Holds service keys w) (hspared : host.Spared (call.draws service) w.files left) :
    host.Holds service keys ⟨left, w.stored⟩ where
  ready := ⟨hspared.ready.dir, hspared.ready.cache⟩
  content key content hkey hstored := by
    have hfind : host.find left (keyPath service key) = host.find w.files (keyPath service key) :=
      hspared.find_eq (hseparate.avoids key hkey)
    rw [hfind]
    exact hholds.content key content hkey hstored

/-- Another key does not lead to the file that is replaced. -/
theorem locate_ne_of_apart {key : Bytes} {pos : List Bytes} (hseparate : host.Separate service keys)
    (hcall : keys call.key) (hkey : keys key) (hne : key ≠ call.key)
    (hfound : host.locate files (keyPath service call.key) = some pos)
    (hfree : files.isDir pos = false) : host.locate files (keyPath service key) ≠ some pos := by
  intro hlocate
  exact hne (hseparate.apart key call.key pos hkey hcall (names_of_locate hlocate hfree)
    (names_of_locate hfound hfree))

section Replaced

variable {left : Files} {pos : List Bytes} (hseparate : host.Separate service keys)
  (hcall : keys call.key) (hfound : host.locate w.files (keyPath service call.key) = some pos)
  (hfree : w.files.isDir pos = false)
  (hnode : left.node = Function.update (host.base service w.files) pos (some (.file call.content)))

include hseparate hcall hfound hfree hnode

theorem find_other {key : Bytes} (hkey : keys key) (hne : key ≠ call.key) :
    host.find left (keyPath service key) = host.find w.files (keyPath service key) :=
  find_of_replaced hfound hfree hnode (hseparate.avoids key hkey)
    (locate_ne_of_apart hseparate hcall hkey hne hfound hfree)

theorem holds_of_replaced (hholds : host.Holds service keys w) :
    host.Holds service keys ⟨left, Function.update w.stored call.key (some call.content)⟩ where
  ready := hholds.ready.of_kept
    (kept_of_replaced (hseparate.avoids call.key hcall) hfound hfree hnode)
  content key content hkey hstored := by
    by_cases heq : key = call.key
    · subst heq
      have hcontent : call.content = content := by simpa using hstored
      rw [← hcontent]
      exact find_replaced (hseparate.avoids call.key hcall) hfound hfree hnode
    · have hbefore : w.stored key = some content := by simpa [heq] using hstored
      have hfind := find_other hseparate hcall hfound hfree hnode hkey heq
      rw [hfind]
      exact hholds.content key content hkey hbefore

end Replaced

/-- A request preserves the invariant, and obeys the law of the map. -/
theorem step_of_holds (hseparate : host.Separate service keys) (hholds : host.Holds service keys w)
    (hkey : keys call.key) (hfresh : host.Fresh service w call) :
    host.Holds service keys (host.step service w call) ∧
      host.IsMap service keys answered w call (host.step service w call) := by
  have havoids := hseparate.avoids call.key hkey
  cases hmethod : call.method with
  | setBinary =>
      have houtcome := setOutcome_of_call hholds.ready (hfresh.resolve_left fun h => by
        cases hmethod.symm.trans h.1) havoids
      generalize hafter : host.setBinary (call.draws service) call.transport call.req w.files =
        after at houtcome
      cases houtcome with
      | @succeeds pos left found replaceable node =>
          rw [step_of_saved hmethod hafter]
          refine ⟨holds_of_replaced hseparate hkey found replaceable node hholds,
            fun hget => ?_, ?_⟩
          · cases hmethod.symm.trans hget
          · intro _ transport req key hreq hkeys hne
            exact got_congr hreq (find_other hseparate hkey found replaceable node hkeys hne)
      | fails refused spared =>
          rw [step_of_refused hmethod hafter refused]
          refine ⟨holds_of_spared hseparate hholds spared, fun hget => ?_, ?_⟩
          · cases hmethod.symm.trans hget
          · intro _ transport req key hreq hkeys hne
            exact got_congr hreq (spared.find_eq (hseparate.avoids key hkeys))
  | getBinary =>
      obtain ⟨seen, left, hrun, hseen, hleft⟩ := getBinary_of_call hholds.ready hfresh hmethod
      have hstep : host.step service w call = ⟨left, w.stored⟩ := by
        rw [step, hmethod]
        simp only [hrun]
      rw [hstep]
      refine ⟨holds_of_spared hseparate hholds hleft, fun _ content hstored => ?_, fun hset => ?_⟩
      · have hfind : host.find seen (keyPath service call.key) =
            host.find w.files (keyPath service call.key) := hseen.find_eq havoids
        rw [answer, hrun]
        apply got_of_file call.hkey
        exact hfind.trans (hholds.content call.key content hkey hstored)
      · cases hmethod.symm.trans hset

/-- The store of mass data is a map on keys that are separate. -/
theorem store_isMap (hseparate : host.Separate service keys) (hready : host.Ready service files)
    (calls : List Call) (hkeys : ∀ call ∈ calls, keys call.key)
    (hfresh : EachStep (host.Step service) (fun w call _ => host.Fresh service w call)
      ⟨files, fun _ => none⟩ calls) :
    EachStep (host.Step service) (host.IsMap service keys answered)
      ⟨files, fun _ => none⟩ calls := by
  have hstart : host.Holds service keys ⟨files, fun _ => none⟩ :=
    ⟨hready, fun key content _ hnone => nomatch hnone⟩
  apply eachStep_of_eachStep _ hstart (hfresh.and (eachStep_of_forall hkeys _))
  rintro w call w' hholds rfl ⟨hfresh, hkey⟩
  exact step_of_holds hseparate hholds hkey hfresh

end Laws

end Host

section Runs

/-- A host with the directory of the mass data and nothing else. -/
def newHost : Host where
  cwd := []
  errno _ _ _ := ⟨2, by decide⟩

def newFiles : Files :=
  (FileTree.bare.assign [bytesOf "massdata"] (some .dir)).getD .bare

def setByMessage (key content : Bytes) (random : UInt32) : Call where
  method := .setBinary
  transport := .message
  req :=
    { method := some (bytesOf "set_binary")
      tsxId := 1
      params := [(.tk, .str []), (.key, .str key), (.algo, .str (bytesOf "None")),
        (.checksum, .str []), (.content, .bin content)] }
  random := random
  key := key
  hkey := rfl

def getBy (transport : Transport) (key : Bytes) (random : UInt32) : Call where
  method := .getBinary
  transport := transport
  req :=
    { method := some (bytesOf "get_binary")
      tsxId := 2
      params := [(.tk, .str []), (.key, .str key)] }
  random := random
  key := key
  hkey := rfl

theorem ready_newFiles : newHost.Ready calm newFiles := by
  refine ⟨by decide +kernel, fun content => ?_⟩
  have hnone : newFiles.node (newHost.cachePos calm) = none := by decide +kernel
  rw [hnone]
  exact fun h => nomatch h

/-- Two keys, one of them read through the other transport. -/
def twoKeys : List Call :=
  [setByMessage (bytesOf "a") [1] 0, setByMessage (bytesOf "b") [2] 1,
    getBy (.session []) (bytesOf "a") 2]

theorem separate_twoKeys :
    newHost.Separate calm fun key => key = bytesOf "a" ∨ key = bytesOf "b" := by
  have hne : position newHost.cwd (Host.keyPath calm (bytesOf "a")) ≠
      position newHost.cwd (Host.keyPath calm (bytesOf "b")) := by decide +kernel
  constructor
  · rintro key key' pos (rfl | rfl) (rfl | rfl) hnames hnames'
    · rfl
    · exact absurd (hnames.2.trans hnames'.2.symm) hne
    · exact absurd (hnames'.2.trans hnames.2.symm) hne
    · rfl
  · rintro key (rfl | rfl)
    · unfold Host.Avoids
      decide +kernel
    · unfold Host.Avoids
      decide +kernel

theorem twoKeys_isMap :
    EachStep (newHost.Step calm)
      (newHost.IsMap calm (fun key => key = bytesOf "a" ∨ key = bytesOf "b") Host.answered)
      ⟨newFiles, fun _ => none⟩ twoKeys := by
  apply Host.store_isMap separate_twoKeys ready_newFiles
  · rintro call hcall
    simp only [twoKeys, List.mem_cons, List.not_mem_nil, or_false] at hcall
    rcases hcall with rfl | rfl | rfl
    · exact .inl rfl
    · exact .inr rfl
    · exact .inl rfl
  · rintro _ rfl
    refine ⟨.inr (by decide +kernel), ?_⟩
    rintro _ rfl
    refine ⟨.inr (by decide +kernel), ?_⟩
    rintro _ rfl
    exact ⟨.inr (by decide +kernel), trivial⟩

/-- A content that no message is answered with. -/
def large : Bytes :=
  List.replicate (maxContentSize + 1) 0

theorem separate_oneKey : newHost.Separate calm fun key => key = bytesOf "a" where
  apart := by
    rintro key key' pos rfl rfl _ _
    rfl
  avoids key hkey := separate_twoKeys.avoids key (.inl hkey)

theorem stored_large :
    (newHost.step calm ⟨newFiles, fun _ => none⟩ (setByMessage (bytesOf "a") large 0)).stored
      (bytesOf "a") = some large := by
  rw [Host.stored_step rfl (by decide +kernel)]
  exact Function.update_self _ _ _

/-- Once a large content is set, the store is no map for messages. -/
theorem not_delivered_large :
    ¬ EachStep (newHost.Step calm)
      (newHost.IsMap calm (fun key => key = bytesOf "a") Host.delivered) ⟨newFiles, fun _ => none⟩
      [setByMessage (bytesOf "a") large 0, getBy .message (bytesOf "a") 1] := by
  intro hmap
  have hstart : newHost.Holds calm (fun key => key = bytesOf "a") ⟨newFiles, fun _ => none⟩ :=
    ⟨ready_newFiles, fun key content _ hnone => nomatch hnone⟩
  have hset : newHost.Holds calm (fun key => key = bytesOf "a")
      (newHost.step calm _ (setByMessage (bytesOf "a") large 0)) :=
    (Host.step_of_holds separate_oneKey hstart rfl (.inr (by decide +kernel))).1
  have hgot : newHost.IsMap calm (fun key => key = bytesOf "a") Host.answered _
      (getBy .message (bytesOf "a") 1) _ :=
    (Host.step_of_holds separate_oneKey hset rfl (.inl ⟨rfl, rfl⟩)).2
  have hget := hgot.get rfl large stored_large
  have hdelivered := ((hmap _ rfl).2 _ rfl).1.get rfl large stored_large
  have hlarge : maxContentSize < large.length := by
    rw [large, List.length_replicate]
    exact Nat.lt_succ_self _
  rw [hdelivered, Host.answered, if_pos ⟨rfl, hlarge⟩] at hget
  have hcode := congrArg Prod.fst (Except.ok.inj hget)
  exact absurd hcode (by decide)

/-- Two keys that name the same file are one, and a message is not answered with a large content. -/
theorem not_store_isMap :
    (¬ ∀ (host : Host) (service : Service Unit) (files : Files) (calls : List Call),
      host.Ready service files →
      EachStep (host.Step service) (fun w call _ => host.Fresh service w call)
        ⟨files, fun _ => none⟩ calls →
      EachStep (host.Step service) (host.IsMap service (fun _ => True) Host.answered)
        ⟨files, fun _ => none⟩ calls) ∧
    ¬ ∀ (host : Host) (service : Service Unit) (keys : Bytes → Prop) (files : Files)
      (calls : List Call), host.Separate service keys → host.Ready service files →
      (∀ call ∈ calls, keys call.key) →
      EachStep (host.Step service) (fun w call _ => host.Fresh service w call)
        ⟨files, fun _ => none⟩ calls →
      EachStep (host.Step service) (host.IsMap service keys Host.delivered)
        ⟨files, fun _ => none⟩ calls := by
  constructor
  · intro h
    have hmap := h newHost calm newFiles
      [setByMessage (bytesOf "a") [1] 0, setByMessage (bytesOf "./a") [2] 1,
        getBy .message (bytesOf "a") 2] ready_newFiles (by
        rintro _ rfl
        refine ⟨.inr (by decide +kernel), ?_⟩
        rintro _ rfl
        refine ⟨.inr (by decide +kernel), ?_⟩
        rintro _ rfl
        exact ⟨.inl ⟨rfl, rfl⟩, trivial⟩)
    have hgot := (((hmap _ rfl).2 _ rfl).2 _ rfl).1.get rfl [1] (by decide +kernel)
    revert hgot
    decide +kernel
  · intro h
    refine not_delivered_large (h newHost calm (fun key => key = bytesOf "a") newFiles _
      separate_oneKey ready_newFiles ?_ ?_)
    · rintro call hcall
      simp only [List.mem_cons, List.not_mem_nil, or_false] at hcall
      rcases hcall with rfl | rfl
      · rfl
      · rfl
    · rintro _ rfl
      refine ⟨.inr (by decide +kernel), ?_⟩
      rintro _ rfl
      exact ⟨.inl ⟨rfl, rfl⟩, trivial⟩

end Runs

end FeedsService.MassData
