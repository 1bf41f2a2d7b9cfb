import FeedsService.Library.Paths
import FeedsService.Rpc.Reception

/-!
# Where mass data goes

Both transports hand the key of a request to `saveBinData` and `loadBinData`, which append
it to the directory of the mass data.  A key that is absolute or has two dots in it leads
elsewhere.
-/

namespace FeedsService.MassData

open FeedsService.Library FeedsService.Library.Paths FeedsService.Rpc

section Paths

/-- A component of a path by its bytes. -/
def component (name : Bytes) : Component Bytes :=
  if name = [] ∨ name = bytesOf "." then .stay
  else if name = bytesOf ".." then .up
  else .down name

def components (path : Path) : List (Component Bytes) :=
  (path.splitOnP fun byte => byte == 47).map component

def isAbsolute (path : Path) : Bool :=
  path.head? = some 47

/-- The position that a path names in a process with the working directory `cwd`. -/
def position (cwd : List Bytes) (path : Path) : List Bytes :=
  walk (if isAbsolute path then [] else cwd) (components path)

theorem components_slash (path part : Path) :
    components (path ++ 47 :: part) = components path ++ components part := by
  rw [components, List.splitOnP_append_cons _ _ rfl, List.map_append]
  rfl

/-- A trailing slash leads nowhere else. -/
theorem walk_components_slash (pos : List Bytes) (path : Path) :
    walk pos (components (path ++ [47])) = walk pos (components path) := by
  rw [components_slash, walk_append]
  rfl

theorem position_append_of_absolute {cwd : List Bytes} {path part : Path}
    (hpart : isAbsolute part = true) :
    position cwd (Path.append path part) = walk [] (components part) := by
  have habsolute : part.head? = some 47 := by simpa [isAbsolute] using hpart
  rw [Path.append, if_pos habsolute, position, if_pos hpart]

theorem position_append_of_relative {cwd : List Bytes} {path part : Path}
    (hpart : isAbsolute part = false) :
    position cwd (Path.append path part) = walk (position cwd path) (components part) := by
  have hrelative : ¬ part.head? = some 47 := by simpa [isAbsolute] using hpart
  rw [Path.append, if_neg hrelative]
  cases path with
  | nil =>
      have hpos : position cwd part = walk cwd (components part) := by
        rw [position, hpart, if_neg (by decide)]
      exact hpos
  | cons byte bytes =>
      have hstart : ∀ rest, isAbsolute (byte :: bytes ++ rest) = isAbsolute (byte :: bytes) :=
        fun _ => rfl
      split
      · next hslash =>
          have hlast : (byte :: bytes).getLast? = some 47 := by simpa using hslash
          obtain ⟨front, hfront⟩ := List.getLast?_eq_some_iff.mp hlast
          have happend : byte :: bytes ++ part = front ++ 47 :: part := by
            rw [hfront, List.append_assoc, List.singleton_append]
          rw [position, position, hstart, happend, hfront, components_slash, walk_append,
            walk_components_slash]
      · rw [position, position, hstart, components_slash, walk_append]

end Paths

section Keys

variable {Response : Type} (service : Service Response) (cwd : List Bytes) (req : Req)

/-- The key as the handlers read it. -/
def keyOf : Option Bytes :=
  (req.str .key).map cString

/-- `saveBinData` renames the file it is given to that of the key. -/
def Replaces (contentFilePath : Path) (key : Bytes) : Prop :=
  keyOf req = some key ∧ (req.str .algo).map cString = some (bytesOf "None") ∧
    service.fileSystem.rename contentFilePath (Path.append service.massDataDir key) = 0

/-- A position in the directory of the mass data, but not in that of the cache. -/
def Inside (pos : List Bytes) : Prop :=
  Below (position cwd service.massDataDir) (fun name => name ≠ bytesOf "cache") pos

/-- What is replaced and what is returned lies in the directory of the mass data. -/
structure Confined : Prop where
  saves : ∀ contentFilePath key, Replaces service req contentFilePath key →
    Inside service cwd (position cwd (Path.append service.massDataDir key))
  loads : ∀ resp answered file, loadBinData service req resp = .ok (0, answered, file) →
    Inside service cwd (position cwd file)

/-- What the key climbs out of it enters again by name, and then goes further, but not to
the cache.  An absolute key climbs all the way. -/
def StaysInside (dir : List Bytes) (key : Bytes) : Prop :=
  (⟨if isAbsolute key then dir.length else (reduce (components key)).climbs,
    (reduce (components key)).names⟩ : Reduced Bytes).Returns dir fun name =>
      name ≠ bytesOf "cache"

theorem inside_iff (key : Bytes) :
    Inside service cwd (position cwd (Path.append service.massDataDir key)) ↔
      StaysInside (position cwd service.massDataDir) key := by
  cases hkey : isAbsolute key with
  | true =>
      rw [Inside, StaysInside, position_append_of_absolute hkey, below_walk_root_iff, hkey,
        if_pos rfl]
  | false =>
      rw [Inside, StaysInside, position_append_of_relative hkey, below_walk_iff, hkey,
        if_neg (by decide)]

theorem loadBinData_eq_zero {resp answered : Option Resp} {file : Path} :
    loadBinData service req resp = .ok (0, answered, file) ↔
      ∃ key, keyOf req = some key ∧ file = Path.append service.massDataDir key ∧
        service.fileSystem.fileExists file = some true ∧
        answered = some (.getBinary req.tsxId key (bytesOf "None") [] []) := by
  simp only [loadBinData, keyOf]
  cases hkey : req.str .key with
  | none => simp [follow]
  | some buffer =>
      simp only [follow, ok_bind, Option.map_some, Option.some.injEq, exists_eq_left']
      cases hexists : service.fileSystem.fileExists
          (Path.append service.massDataDir (cString buffer)) with
      | none =>
          simp only [orThrow, error_bind]
          refine iff_of_false (by simp) ?_
          rintro ⟨rfl, hfound, -⟩
          cases hexists.symm.trans hfound
      | some found =>
          simp only [orThrow, ok_bind]
          cases found with
          | false =>
              refine iff_of_false (fun hresult => ?_) ?_
              · have hcode := congrArg Prod.fst (Except.ok.inj hresult)
                simp [ErrCode.fileNotExistsError] at hcode
              · rintro ⟨rfl, hfound, -⟩
                cases hexists.symm.trans hfound
          | true =>
              simp only [Bool.true_eq_false, if_false]
              constructor
              · intro hresult
                cases hresult
                exact ⟨rfl, hexists, rfl⟩
              · rintro ⟨rfl, -, rfl⟩
                rfl

/-- The exact condition, for the file operations that succeed. -/
theorem confined_iff :
    Confined service cwd req ↔
      ∀ key, keyOf req = some key →
        (∃ contentFilePath, Replaces service req contentFilePath key) ∨
          service.fileSystem.fileExists (Path.append service.massDataDir key) = some true →
        StaysInside (position cwd service.massDataDir) key := by
  constructor
  · intro hconfined key hkey htouched
    rw [← inside_iff]
    rcases htouched with ⟨contentFilePath, hreplaces⟩ | hexists
    · exact hconfined.saves contentFilePath key hreplaces
    · exact hconfined.loads none _ _
        ((loadBinData_eq_zero service req).mpr ⟨key, hkey, rfl, hexists, rfl⟩)
  · intro hstays
    refine ⟨fun contentFilePath key hreplaces => ?_, fun resp answered file hload => ?_⟩
    · rw [inside_iff]
      exact hstays key hreplaces.1 (.inl ⟨contentFilePath, hreplaces⟩)
    · obtain ⟨key, hkey, rfl, hexists, -⟩ := (loadBinData_eq_zero service req).mp hload
      rw [inside_iff]
      exact hstays key hkey (.inr hexists)

end Keys

section Escape

def str (text : String) : Object :=
  .str (sized text)

/-- A member asks for a file of the node. -/
def escapingRequest : Entries :=
  [(str "version", str "1.0"),
    (str "method", str "get_binary"),
    (str "id", .positiveInteger 1),
    (str "params", .map [
      (str "access_token", str "token"),
      (str "key", str "../keystore")])]

/-- The key that a parser has put into the request it accepts. -/
def parsedKey (answer : Except Fault Answer) : Option Bytes :=
  match answer with
  | .ok ⟨0, some req⟩ => keyOf req
  | _ => none

theorem parsedKey_eq_some {answer : Except Fault Answer} {key : Bytes}
    (h : parsedKey answer = some key) :
    ∃ req, answer = .ok ⟨0, some req⟩ ∧ keyOf req = some key := by
  unfold parsedKey at h
  split at h
  · next req => exact ⟨req, rfl, h⟩
  · cases h

theorem parsed_key_escapes :
    ∃ req, unmarshalGetBinaryReq.unmarshal (fun _ => true) escapingRequest = .ok ⟨0, some req⟩ ∧
      ¬ Confined calm [] req := by
  have hparses : parsedKey (unmarshalGetBinaryReq.unmarshal (fun _ => true) escapingRequest) =
      some (bytesOf "../keystore") := by decide +kernel
  obtain ⟨req, hparsed, hkey⟩ := parsedKey_eq_some hparses
  refine ⟨req, hparsed, fun hconfined => ?_⟩
  have hescapes := (confined_iff calm [] req).mp hconfined _ hkey (.inr rfl)
  rw [← inside_iff] at hescapes
  obtain ⟨name, names, hinside, -⟩ := hescapes
  have hplace : position [] (Path.append calm.massDataDir (bytesOf "../keystore")) =
      [bytesOf "keystore"] := by decide
  have hdir : position [] calm.massDataDir = [bytesOf "massdata"] := by decide
  rw [hplace, hdir] at hinside
  have hlength := congrArg List.length hinside
  simp at hlength

end Escape

end FeedsService.MassData
