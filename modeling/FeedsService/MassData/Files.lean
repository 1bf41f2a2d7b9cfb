import FeedsService.Library.FileTrees
import FeedsService.MassData.Confinement
import FeedsService.Rpc.Runtime

/-!
# Mass data on files

The handlers of both transports with the files they read and change.  Each of the two puts
the content that it receives into a file of the cache first, and renames this file to that
of the key.
-/

namespace FeedsService.MassData

open FeedsService.Library FeedsService.Library.Paths FeedsService.Rpc

abbrev Files := FileTree Bytes Bytes

/-- What the operating system knows besides the files. -/
structure Host where
  cwd : List Bytes
  /-- The error code of a rename that fails. -/
  errno : Files → Path → Path → { code : ℕ // code ≠ 0 }

/-- What a handler returns or is stopped by, and the files it leaves. -/
abbrev FileM := ExceptT Stop (StateM Files)

theorem pure_run {α : Type} (value : α) (files : Files) :
    (pure value : FileM α) files = (.ok value, files) := rfl

theorem bind_run {α β : Type} (first : FileM α) (second : α → FileM β) (files : Files) :
    (first >>= second) files =
      match first files with
      | (.ok value, files) => second value files
      | (.error stop, files) => (.error stop, files) := by
  change (ExceptT.bindCont second (first files).1 : StateM _ _) (first files).2 = _
  cases first files with
  | mk result files => cases result <;> rfl

theorem ofExcept_run {α : Type} (value : Except Stop α) (files : Files) :
    (ofExcept value : FileM α) files = (value, files) := by
  cases value <;> rfl

namespace Host

variable (host : Host)

section Operations

def locate (files : Files) (path : Path) : Option (List Bytes) :=
  files.locate (if isAbsolute path then [] else host.cwd) (components path)

def find (files : Files) (path : Path) : Option (Node Bytes) :=
  (host.locate files path).bind files.node

def fileExists (path : Path) : FileM Bool := do
  return (host.find (← get) path).isSome

/-- Whether directories were made. -/
def createDirectories (path : Path) : FileM Bool := do
  let files ← get
  match files.createDirectories (if isAbsolute path then [] else host.cwd) (components path) with
  | none => throw .thrown
  | some made =>
    set made
    return (host.find files path).isNone

/-- A stream that is opened to append; when it cannot be opened nothing is written. -/
def append (path : Path) (content : Bytes) : FileM Unit := do
  let files ← get
  let written := (host.locate files path).bind fun pos =>
    match files.node pos with
    | some .dir => none
    | some (.file old) => files.assign pos (some (.file (old ++ content)))
    | none => files.assign pos (some (.file content))
  set (written.getD files)

/-- The files after a file has been renamed. -/
def renamed (files : Files) (old new : Path) : Option Files := do
  files.rename (← host.locate files old) (← host.locate files new)

/-- The value of the error code, 0 for success. -/
def renameError (files : Files) (old new : Path) : ℕ :=
  match host.renamed files old new with
  | none => host.errno files old new
  | some _ => 0

def rename (old new : Path) : FileM ℕ := do
  let files ← get
  set ((host.renamed files old new).getD files)
  return host.renameError files old new

/-- Only files are removed. -/
def removed (files : Files) (path : Path) : Option (Bool × Files) :=
  match host.find files path with
  | none => some (false, files)
  | some _ => (((host.locate files path).bind files.remove).map fun left => (true, left))

def remove (path : Path) : FileM Bool := do
  match host.removed (← get) path with
  | none => throw .thrown
  | some (found, left) =>
    set left
    return found

/-- What `std::filesystem` answers while the files are these. -/
def fileSystem (files : Files) : FileSystem where
  fileExists path := some (host.find files path).isSome
  createDirectories path :=
    (files.createDirectories (if isAbsolute path then [] else host.cwd) (components path)).map
      fun _ => (host.find files path).isNone
  rename := host.renameError files
  remove path := (host.removed files path).map Prod.fst
  fileSize path :=
    match host.find files path with
    | some (.file content) => some content.length
    | _ => none
  read path size :=
    match host.find files path with
    | some (.file content) => content.take size
    | _ => []

theorem fileExists_run (files : Files) (path : Path) :
    host.fileExists path files = (.ok (host.find files path).isSome, files) := rfl

theorem createDirectories_run {files made : Files} {path : Path}
    (hmade : files.createDirectories (if isAbsolute path then [] else host.cwd)
      (components path) = some made) :
    host.createDirectories path files = (.ok (host.find files path).isNone, made) := by
  change (match files.createDirectories (if isAbsolute path then [] else host.cwd)
      (components path) with
    | none => throw .thrown
    | some made => do
      set made
      return (host.find files path).isNone : FileM Bool) files = _
  rw [hmade]
  rfl

theorem append_run {files written : Files} {path : Path} {pos : List Bytes} {content : Bytes}
    (hpath : host.locate files path = some pos) (hfree : files.node pos = none)
    (hwritten : files.assign pos (some (.file content)) = some written) :
    host.append path content files = (.ok (), written) := by
  change ((.ok (), ((host.locate files path).bind fun pos =>
    match files.node pos with
    | some .dir => none
    | some (.file old) => files.assign pos (some (.file (old ++ content)))
    | none => files.assign pos (some (.file content))).getD files) : Except Stop Unit × Files) = _
  simp only [hpath, Option.bind_some, hfree, hwritten, Option.getD_some]

theorem remove_run {files left : Files} {path : Path} {found : Bool}
    (hleft : host.removed files path = some (found, left)) :
    host.remove path files = (.ok found, left) := by
  change (match host.removed files path with
    | none => throw .thrown
    | some (found, left) => do
      set left
      return found : FileM Bool) files = _
  rw [hleft]
  rfl

end Operations

section Places

variable {host} {files : Files} {path part : Path} {pos : List Bytes}

/-- A part is looked for in the directory that the path leads to. -/
theorem locate_append (hpath : host.locate files path = some pos)
    (hpart : isAbsolute part = false) :
    host.locate files (Path.append path part) = files.locate pos (components part) := by
  have hrelative : ¬ part.head? = some 47 := by simpa [isAbsolute] using hpart
  rw [Path.append, if_neg hrelative]
  cases path with
  | nil =>
      have hpos : files.locate host.cwd [.stay] = some pos := hpath
      have hcwd : pos = host.cwd := FileTree.eq_walk_of_locate hpos
      have hhere : (if isAbsolute part = true then [] else host.cwd) = host.cwd := by
        rw [hpart, if_neg (by decide)]
      rw [hcwd]
      exact congrArg (files.locate · (components part)) hhere
  | cons byte bytes =>
      have hstart : ∀ rest, isAbsolute (byte :: bytes ++ rest) = isAbsolute (byte :: bytes) :=
        fun _ => rfl
      rw [locate] at hpath
      split
      · next hslash =>
          have hlast : (byte :: bytes).getLast? = some 47 := by simpa using hslash
          obtain ⟨front, hfront⟩ := List.getLast?_eq_some_iff.mp hlast
          have happend : byte :: bytes ++ part = front ++ 47 :: part := by
            rw [hfront, List.append_assoc, List.singleton_append]
          have hstay : components (byte :: bytes) = components front ++ [.stay] := by
            rw [hfront, components_slash]
            rfl
          rw [hstay, FileTree.locate_append] at hpath
          obtain ⟨last, hfound, hlast⟩ := Option.bind_eq_some_iff.mp hpath
          have hpos : pos = last := FileTree.eq_walk_of_locate hlast
          rw [locate, hstart, happend, components_slash, FileTree.locate_append, hfound, hpos]
          rfl
      · rw [locate, hstart, components_slash, FileTree.locate_append, hpath]
        rfl

/-- A path has a component, and leads somewhere from directories only. -/
theorem isDir_of_locate (hpath : host.locate files path = some pos) :
    files.isDir (if isAbsolute path then [] else host.cwd) = true := by
  rw [locate] at hpath
  cases hcomponents : components path with
  | nil =>
      rw [components, List.map_eq_nil_iff] at hcomponents
      exact absurd hcomponents (List.splitOnP_ne_nil _ _)
  | cons first rest =>
      by_cases hdir : files.isDir (if isAbsolute path then [] else host.cwd) = true
      · exact hdir
      · rw [hcomponents, FileTree.locate, if_neg hdir] at hpath
        cases hpath

theorem find_eq_of_locate (hpath : host.locate files path = some pos) :
    host.find files path = files.node pos := by
  rw [find, hpath]
  rfl

/-- Where a path leads does not depend on the files. -/
theorem eq_position_of_locate (hpath : host.locate files path = some pos) :
    pos = position host.cwd path :=
  FileTree.eq_walk_of_locate hpath

/-- A name without a slash that is not empty and no dots. -/
theorem components_of_name (hslash : (47 : UInt8) ∉ part) (hname : component part = .down part) :
    components part = [.down part] := by
  have hwhole : (part.splitOnP fun byte => byte == 47) = [part] := by
    apply List.splitOnP_eq_singleton
    intro byte hbyte
    rw [beq_eq_false_iff_ne]
    rintro rfl
    exact hslash hbyte
  rw [components, hwhole, List.map_singleton, hname]

/-- The name of a file in the cache. -/
def numbered (stem : String) (number : UInt32) : Bytes :=
  bytesOf (stem ++ toString number)

variable {stem : String} {number : UInt32}

theorem slash_notMem_numbered (hstem : (47 : UInt8) ∉ bytesOf stem) :
    (47 : UInt8) ∉ numbered stem number := by
  rw [numbered, bytesOf, String.toList_append, List.map_append, List.mem_append, not_or]
  refine ⟨hstem, ?_⟩
  rw [List.mem_map]
  rintro ⟨char, hchar, hslash⟩
  have hdigits : char ∈ Nat.toDigits 10 number.toNat := by
    rw [← Nat.toList_repr]
    exact hchar
  have hdigit := Nat.isDigit_of_mem_toDigits (by decide) (by decide) hdigits
  simp only [Char.isDigit, Bool.and_eq_true, decide_eq_true_eq] at hdigit
  have hlow : 48 ≤ char.toNat := hdigit.1
  have hhigh : char.toNat ≤ 57 := hdigit.2
  have hsmall : char.toNat < UInt8.size := hhigh.trans_lt (by decide)
  have hnumber := congrArg UInt8.toNat hslash
  rw [UInt8.toNat_ofNat_of_lt' hsmall] at hnumber
  have h47 : (47 : UInt8).toNat = 47 := rfl
  omega

theorem isAbsolute_numbered (hstem : (47 : UInt8) ∉ bytesOf stem) :
    isAbsolute (numbered stem number) = false := by
  rw [isAbsolute, decide_eq_false_iff_not]
  exact fun hhead => slash_notMem_numbered hstem (List.mem_of_head? hhead)

theorem components_numbered (hstem : (47 : UInt8) ∉ bytesOf stem)
    (hlength : 2 < (bytesOf stem).length) :
    components (numbered stem number) = [.down (numbered stem number)] := by
  apply components_of_name (slash_notMem_numbered hstem)
  have hlong : 2 < (numbered stem number).length := by
    rw [numbered, bytesOf, String.toList_append, List.map_append, List.length_append]
    exact hlength.trans_le (Nat.le_add_right _ _)
  have hne : ∀ short : Bytes, short.length ≤ 2 → numbered stem number ≠ short := by
    rintro short hshort rfl
    omega
  rw [component, if_neg, if_neg]
  · exact hne _ (by decide)
  · exact not_or.mpr ⟨hne _ (by decide), hne _ (by decide)⟩

end Places

section Handlers

variable {Response : Type} (service : Service Response)

/-- The service on the files. -/
def on (files : Files) : Service Response :=
  { service with fileSystem := host.fileSystem files }

def saveBinData (req : Req) (resp : Option Resp) (contentFilePath : Path) :
    FileM (ℤ × Option Resp) := do
  let algo ← ofExcept (follow (req.str .algo))
  if algo ≠ bytesOf "None" then return (ErrCode.cmdUnsupportedAlgo, resp)
  let key ← ofExcept (follow (req.str .key))
  let ec ← host.rename contentFilePath (Path.append service.massDataDir key)
  if ec ≠ 0 then return (ErrCode.stdSystemErrorIndex - ec, resp)
  return (0, some (.setBinary req.tsxId key))

/-- Whether the directory of the cache is there or has been made. -/
def makeCacheDir : FileM Bool := do
  let found ← host.fileExists (massDataCacheDir service)
  if found then return true
  host.createDirectories (massDataCacheDir service)

/-- The content is put into a file in the cache; when the request has been handled, the file is
removed if it is still there. -/
def withCacheFile {α : Type} (file : Path) (content : Bytes) (refused : α) (handle : FileM α) :
    FileM α := do
  let created ← host.makeCacheDir service
  if created = false then return refused
  host.append file content
  let answered ← handle
  let _ ← host.remove file
  return answered

def onSetBinary (req : Req) (resp : Option Resp) : FileM (ℤ × Option Resp) :=
  host.withCacheFile service (massDataCacheFilePath service) (req.bin .content)
    (ErrCode.fileNotExistsError, resp)
    (host.saveBinData service req resp (massDataCacheFilePath service))

/-- `MassData::onGetBinary` changes no file. -/
def onGetBinary (files : Files) (req : Req) (resp : Option Resp) :
    Except Stop (ℤ × Option Resp) :=
  Rpc.onGetBinary (host.on service files) req resp

namespace MassDataProcessor

def onSetBinary (req : Req) (bodyPath : Path) (resp : Option Resp) : FileM (ℤ × Option Resp) :=
  host.saveBinData service req resp bodyPath

/-- The file of the result is returned besides. -/
def onGetBinary (files : Files) (req : Req) (resp : Option Resp) :
    Except Stop (ℤ × Option Resp × Path) :=
  loadBinData (host.on service files) req resp

end MassDataProcessor

/-- The file that `SessionParser` puts the body of a message into. -/
def bodyPath : Path :=
  Path.append (massDataCacheDir service) (numbered "session-bodydata-" service.random)

/-- The body that `MassDataManager` sends after the head. -/
def sentBody (files : Files) (resultBodyPath : Path) : Except Stop Bytes :=
  let fileSystem := host.fileSystem files
  if resultBodyPath = [] ∨ fileSystem.fileExists resultBodyPath = some false then
    .ok []
  else do
    let size ← orThrow (fileSystem.fileSize resultBodyPath)
    return fileSystem.read resultBodyPath size

variable {host service} {files : Files} {req : Req} {resp : Option Resp} {path : Path}

theorem rename_run (old new : Path) :
    host.rename old new files =
      (.ok (host.renameError files old new), (host.renamed files old new).getD files) := rfl

/-- The answer of `saveBinData` when it succeeds. -/
def saved (req : Req) (key : Bytes) : ℤ × Option Resp :=
  (0, some (.setBinary req.tsxId (cString key)))

/-- Either the file is renamed, or a code is returned and nothing happens. -/
theorem saveBinData_cases {key : Bytes} (hkey : req.str .key = some key) :
    (∃ moved, host.renamed files path (Path.append service.massDataDir (cString key)) = some moved ∧
        host.saveBinData service req resp path files = (.ok (saved req key), moved)) ∨
      ∃ result, (∀ answered, result ≠ .ok (0, answered)) ∧
        host.saveBinData service req resp path files = (result, files) := by
  have hfollow : follow (req.str .key) = .ok (cString key) := by rw [hkey, follow]
  rw [saveBinData, bind_run, ofExcept_run]
  cases follow (req.str .algo) with
  | error stop =>
      refine .inr ⟨.error stop, ?_, rfl⟩
      intro answered h
      cases h
  | ok algo =>
      by_cases hnone : algo ≠ bytesOf "None"
      · refine .inr ⟨.ok (ErrCode.cmdUnsupportedAlgo, resp), ?_, ?_⟩
        · intro answered h
          have hcode := congrArg Prod.fst (Except.ok.inj h)
          simp only [ErrCode.cmdUnsupportedAlgo] at hcode
          omega
        · simp only [if_pos hnone, pure_run]
      · simp only [if_neg hnone, bind_run, ofExcept_run, hfollow, rename_run]
        rw [renameError]
        cases hrenamed : host.renamed files path
          (Path.append service.massDataDir (cString key)) with
        | some moved => exact .inl ⟨moved, rfl, rfl⟩
        | none =>
            have hcode := (host.errno files path
              (Path.append service.massDataDir (cString key))).property
            refine .inr ⟨.ok (ErrCode.stdSystemErrorIndex -
              (host.errno files path (Path.append service.massDataDir (cString key))).val, resp),
              ?_, ?_⟩
            · intro answered h
              have hzero := congrArg Prod.fst (Except.ok.inj h)
              simp only [ErrCode.stdSystemErrorIndex] at hzero
              omega
            · simp only [if_pos hcode, pure_run, Option.getD_none]

end Handlers

end Host

end FeedsService.MassData
