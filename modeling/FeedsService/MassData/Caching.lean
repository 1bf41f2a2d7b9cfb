import FeedsService.MassData.Files

/-!
# Files in the cache

While a request that brings content is handled, the content is in a file of the cache.
Afterwards it is in the file of the key, or nothing has happened outside the cache.
-/

namespace FeedsService.MassData.Host

open FeedsService.Library FeedsService.Library.Paths FeedsService.Rpc

section Caching

variable {Response : Type} (host : Host) (service : Service Response)

def cachePos : List Bytes :=
  position host.cwd (massDataCacheDir service)

/-- The directory of the mass data is there, and no file where its cache is to be. -/
structure Ready (files : Files) : Prop where
  dir : host.find files service.massDataDir = some .dir
  cache : ∀ content, files.node (host.cachePos service) ≠ some (.file content)

/-- What is there once the directory of the cache is. -/
def base (files : Files) : List Bytes → Option (Node Bytes) :=
  Function.update files.node (host.cachePos service) (some .dir)

/-- A file in the cache under a name of its own. -/
structure CacheFile (file : Path) (name : Bytes) : Prop where
  path : file = Path.append (massDataCacheDir service) name
  relative : isAbsolute name = false
  name : components name = [.down name]

/-- The files with one more, which is in the cache. -/
structure Written (files : Files) (name content : Bytes) (written : Files) : Prop where
  fresh : files.node (host.cachePos service ++ [name]) = none
  node : written.node = Function.update (host.base service files)
    (host.cachePos service ++ [name]) (some (.file content))

/-- The way of a path never enters the cache. -/
def Avoids (path : Path) : Prop :=
  ∀ step ∈ (components path).scanl move (if isAbsolute path then [] else host.cwd),
    ¬ host.cachePos service <+: step

variable {host service} {files : Files} {file path : Path} {name content : Bytes}

theorem base_of_outside {pos : List Bytes} (hpos : ¬ host.cachePos service <+: pos) :
    host.base service files pos = files.node pos := by
  rw [base, Function.update_of_ne]
  rintro rfl
  exact hpos List.prefix_rfl

theorem base_of_isDir {pos : List Bytes} (hpos : files.isDir pos = true) :
    host.base service files pos = some .dir := by
  rw [base, Function.update_apply]
  split
  · rfl
  · exact FileTree.isDir_iff.mp hpos

theorem Ready.exists_root (hready : host.Ready service files) :
    ∃ root, host.locate files service.massDataDir = some root ∧ files.isDir root = true ∧
      host.locate files (massDataCacheDir service) = some (host.cachePos service) ∧
      host.cachePos service = root ++ [bytesOf "cache"] := by
  obtain ⟨root, hroot, hnode⟩ := Option.bind_eq_some_iff.mp hready.dir
  have hdir := FileTree.isDir_iff.mpr hnode
  have hlocate : host.locate files (massDataCacheDir service) =
      some (root ++ [bytesOf "cache"]) := by
    rw [massDataCacheDir, locate_append hroot (by decide)]
    have hcache : components (bytesOf "cache") = [.down (bytesOf "cache")] :=
      components_of_name (by decide) rfl
    rw [hcache, FileTree.locate_cons_of_isDir hdir]
    rfl
  have hpos : root ++ [bytesOf "cache"] = host.cachePos service := eq_position_of_locate hlocate
  exact ⟨root, hroot, hdir, hpos ▸ hlocate, hpos.symm⟩

/-- As long as the directories are kept, the cache is ready. -/
theorem Ready.of_kept {left : Files} (hready : host.Ready service files)
    (hkept : ∀ step, host.base service files step = some .dir → left.node step = some .dir) :
    host.Ready service left := by
  obtain ⟨root, hroot, hdir, -, -⟩ := hready.exists_root
  refine ⟨?_, fun content hcontent => ?_⟩
  · have hmono : ∀ step, files.isDir step = true → left.isDir step = true :=
      fun step hstep => FileTree.isDir_iff.mpr (hkept step (base_of_isDir hstep))
    have hlocate : host.locate left service.massDataDir = some root :=
      FileTree.locate_mono hmono hroot
    rw [find_eq_of_locate hlocate]
    exact hkept root (base_of_isDir hdir)
  · cases (hkept _ (Function.update_self _ _ _)).symm.trans hcontent

/-- The file in the cache is found as long as the directories are kept. -/
theorem CacheFile.locate {left : Files} (hfile : CacheFile service file name)
    (hready : host.Ready service files)
    (hkept : ∀ step, host.base service files step = some .dir → left.node step = some .dir) :
    host.locate left file = some (host.cachePos service ++ [name]) := by
  obtain ⟨root, -, -, hlocate, -⟩ := hready.exists_root
  have hdir : host.locate left (massDataCacheDir service) = some (host.cachePos service) :=
    FileTree.locate_mono
      (fun step hstep => FileTree.isDir_iff.mpr (hkept step (base_of_isDir hstep))) hlocate
  have hcache : left.isDir (host.cachePos service) = true :=
    FileTree.isDir_iff.mpr (hkept _ (Function.update_self _ _ _))
  rw [hfile.path, locate_append hdir hfile.relative, hfile.name,
    FileTree.locate_cons_of_isDir hcache]
  rfl

theorem exists_made (hready : host.Ready service files) :
    ∃ made : Files, host.makeCacheDir service files = (.ok true, made) ∧
      made.node = host.base service files := by
  obtain ⟨root, hroot, hdir, hlocate, hpos⟩ := hready.exists_root
  have hfind := find_eq_of_locate hlocate
  cases hnode : files.node (host.cachePos service) with
  | some node =>
      cases node with
      | file content => exact absurd hnode (hready.cache content)
      | dir =>
          refine ⟨files, ?_, ?_⟩
          · rw [makeCacheDir, bind_run, fileExists_run, hfind, hnode]
            rfl
          · rw [base, ← hnode, Function.update_eq_self]
  | none =>
      have hparent : files.isDir (host.cachePos service).dropLast = true := by
        rw [hpos, List.dropLast_concat]
        exact hdir
      have hfree : files.isDir (host.cachePos service) = false := by
        rw [Bool.eq_false_iff, Ne, FileTree.isDir_iff, hnode]
        exact fun h => nomatch h
      obtain ⟨made, hmade, hmadeNode⟩ := FileTree.exists_assign hfree hparent (some .dir)
      refine ⟨made, ?_, hmadeNode⟩
      have hcreate := FileTree.createDirectories_of_locate (isDir_of_locate hlocate) hlocate
      simp only [hnode, hmade] at hcreate
      have hrun := createDirectories_run host hcreate
      rw [hfind, hnode] at hrun
      rw [makeCacheDir, bind_run, fileExists_run, hfind, hnode]
      exact hrun

/-- The request is handled with the content in a file of the cache. -/
theorem withCacheFile_run {α : Type} (hready : host.Ready service files)
    (hfile : CacheFile service file name)
    (hfresh : files.node (host.cachePos service ++ [name]) = none) (content : Bytes)
    (refused : α) (handle : FileM α) :
    ∃ written, host.Written service files name content written ∧
      host.withCacheFile service file content refused handle files =
        (do
          let answered ← handle
          let _ ← host.remove file
          return answered : FileM α) written := by
  obtain ⟨made, hmade, hnode⟩ := exists_made hready
  have hlocate : host.locate made file = some (host.cachePos service ++ [name]) :=
    hfile.locate hready (fun step hstep => hnode ▸ hstep)
  have hfree : made.node (host.cachePos service ++ [name]) = none := by
    rw [hnode, base, Function.update_of_ne (by simp), hfresh]
  have hnotDir : made.isDir (host.cachePos service ++ [name]) = false := by
    rw [Bool.eq_false_iff, Ne, FileTree.isDir_iff, hfree]
    exact fun h => nomatch h
  have hparent : made.isDir (host.cachePos service ++ [name]).dropLast = true := by
    rw [List.dropLast_concat, FileTree.isDir_iff, hnode, base, Function.update_self]
  obtain ⟨written, hwritten, hwrittenNode⟩ :=
    FileTree.exists_assign hnotDir hparent (some (.file content))
  refine ⟨written, ⟨hfresh, by rw [hwrittenNode, hnode]⟩, ?_⟩
  rw [withCacheFile, bind_run, hmade]
  simp only [Bool.true_eq_false, if_false, bind_run, append_run host hlocate hfree hwritten]

namespace Written

variable {written : Files} (h : host.Written service files name content written)

include h

theorem base_eq_none : host.base service files (host.cachePos service ++ [name]) = none := by
  rw [base, Function.update_of_ne (by simp), h.fresh]

theorem kept (step : List Bytes) (hstep : host.base service files step = some .dir) :
    written.node step = some .dir := by
  rw [h.node, Function.update_of_ne]
  · exact hstep
  · rintro rfl
    cases h.base_eq_none.symm.trans hstep

theorem content_eq : written.node (host.cachePos service ++ [name]) = some (.file content) := by
  rw [h.node, Function.update_self]

/-- Outside the cache nothing is new. -/
theorem same (pos : List Bytes) (hpos : ¬ host.cachePos service <+: pos) :
    written.node pos = files.node pos := by
  rw [h.node, Function.update_of_ne, base_of_outside hpos]
  rintro rfl
  exact hpos (List.prefix_append _ _)

/-- A file in the cache that is still there is removed. -/
theorem exists_removed (hready : host.Ready service files) (hfile : CacheFile service file name) :
    ∃ left, host.removed written file = some (true, left) ∧
      left.node = host.base service files := by
  have hlocate := hfile.locate hready h.kept
  obtain ⟨left, hleft, hnode⟩ := FileTree.exists_remove h.content_eq
  refine ⟨left, ?_, ?_⟩
  · rw [removed, find_eq_of_locate hlocate, h.content_eq, hlocate]
    simp only [Option.bind_some, hleft, Option.map_some]
  · rw [hnode, h.node, Function.update_idem, ← h.base_eq_none, Function.update_eq_self]

end Written

end Caching

section Setting

variable {Response : Type} {host : Host} {service : Service Response} {files files' : Files}
  {file path : Path} {name content key : Bytes} {req : Req} {resp : Option Resp}

/-- A path that avoids the cache depends on the directories outside it. -/
theorem Avoids.locate_eq (h : host.Avoids service path)
    (hsame : ∀ pos, ¬ host.cachePos service <+: pos → files'.isDir pos = files.isDir pos) :
    host.locate files' path = host.locate files path :=
  FileTree.locate_congr fun step hstep => hsame step (h step hstep)

theorem Avoids.outside {pos : List Bytes} (h : host.Avoids service path)
    (hpath : host.locate files path = some pos) : ¬ host.cachePos service <+: pos := by
  rw [FileTree.eq_walk_of_locate hpath]
  exact h _ FileTree.walk_mem_scanl

/-- The files are the same outside the cache, and it is ready. -/
structure Spared (host : Host) (service : Service Response) (files files' : Files) : Prop where
  ready : host.Ready service files'
  same : ∀ pos, ¬ host.cachePos service <+: pos → files'.node pos = files.node pos

theorem Spared.isDir_eq (h : host.Spared service files files') (pos : List Bytes)
    (hpos : ¬ host.cachePos service <+: pos) : files'.isDir pos = files.isDir pos := by
  rw [FileTree.isDir, FileTree.isDir, h.same pos hpos]

theorem Spared.find_eq (h : host.Spared service files files') (hpath : host.Avoids service path) :
    host.find files' path = host.find files path := by
  rw [find, find, hpath.locate_eq h.isDir_eq]
  cases hlocate : host.locate files path with
  | none => rfl
  | some pos => exact h.same pos (hpath.outside hlocate)

theorem Written.spared (h : host.Written service files name content files')
    (hready : host.Ready service files) : host.Spared service files files' where
  ready := hready.of_kept h.kept
  same := h.same

theorem spared_of_base (hready : host.Ready service files)
    (h : files'.node = host.base service files) : host.Spared service files files' where
  ready := hready.of_kept fun step hstep => by rw [h, hstep]
  same pos hpos := by rw [h, base_of_outside hpos]

/-- The file of a key. -/
def keyPath (service : Service Response) (key : Bytes) : Path :=
  Path.append service.massDataDir (cString key)

/-- What becomes of the files when content is set: that of the key is replaced, or nothing outside
the cache. -/
inductive SetOutcome (host : Host) (service : Service Response) (files : Files) (content : Bytes)
    (req : Req) (key : Bytes) : Except Stop (ℤ × Option Resp) × Files → Prop
  | succeeds {pos : List Bytes} {left : Files}
      (found : host.locate files (keyPath service key) = some pos)
      (replaceable : files.isDir pos = false)
      (node : left.node = Function.update (host.base service files) pos (some (.file content))) :
      SetOutcome host service files content req key (.ok (saved req key), left)
  | fails {result : Except Stop (ℤ × Option Resp)} {left : Files}
      (refused : ∀ answered, result ≠ .ok (0, answered)) (spared : host.Spared service files left) :
      SetOutcome host service files content req key (result, left)

/-- A file that was put into the cache is renamed to that of the key. -/
theorem renamed_eq_some {written moved : Files} {source : List Bytes}
    (hfile : host.locate written file = some source)
    (hcontent : written.node source = some (.file content))
    (hmoved : host.renamed written file path = some moved)
    (hne : ∀ pos, host.locate written path = some pos → source ≠ pos) :
    ∃ pos, host.locate written path = some pos ∧ written.isDir pos = false ∧
      moved.node =
        Function.update (Function.update written.node pos (some (.file content))) source none := by
  rw [renamed, hfile] at hmoved
  obtain ⟨_, hsource, hmoved⟩ := Option.bind_eq_some_iff.mp hmoved
  cases hsource
  obtain ⟨pos, hpos, hrename⟩ := Option.bind_eq_some_iff.mp hmoved
  have hparent := FileTree.isDir_dropLast_of_locate (isDir_of_locate hpos) hpos
  cases hdir : written.isDir pos with
  | true =>
      rw [FileTree.rename_of_isDir hcontent hdir] at hrename
      cases hrename
  | false =>
      obtain ⟨moved', hmoved', hnode⟩ := FileTree.exists_rename hcontent (hne pos hpos) hdir hparent
      cases hmoved'.symm.trans hrename
      exact ⟨pos, hpos, hdir, hnode⟩

/-- After the rename there is nothing left to remove. -/
theorem setOutcome_of_renamed {written moved : Files} (hready : host.Ready service files)
    (hfile : CacheFile service file name)
    (hwritten : host.Written service files name content written)
    (havoids : host.Avoids service (keyPath service key))
    (hmoved : host.renamed written file (keyPath service key) = some moved) :
    host.removed moved file = some (false, moved) ∧
      host.SetOutcome service files content req key (.ok (saved req key), moved) := by
  have hne : ∀ pos, host.locate written (keyPath service key) = some pos →
      host.cachePos service ++ [name] ≠ pos := by
    rintro pos hpos rfl
    exact havoids.outside hpos (List.prefix_append _ _)
  obtain ⟨pos, hpos, hdir, hnode⟩ :=
    renamed_eq_some (hfile.locate hready hwritten.kept) hwritten.content_eq hmoved hne
  have hgone : moved.node (host.cachePos service ++ [name]) = none := by
    rw [hnode, Function.update_self]
  have hkept : ∀ step, host.base service files step = some .dir → moved.node step = some .dir := by
    intro step hstep
    have hdirs := hwritten.kept step hstep
    rw [hnode, Function.update_of_ne, Function.update_of_ne]
    · exact hdirs
    · rintro rfl
      rw [FileTree.isDir_iff.mpr hdirs] at hdir
      cases hdir
    · rintro rfl
      cases hwritten.content_eq.symm.trans hdirs
  constructor
  · rw [removed, find_eq_of_locate (hfile.locate hready hkept), hgone]
  · have hnone : Function.update (host.base service files) pos (some (.file content))
        (host.cachePos service ++ [name]) = none := by
      rw [Function.update_of_ne (hne pos hpos), hwritten.base_eq_none]
    have hfound : host.locate files (keyPath service key) = some pos := by
      rw [← havoids.locate_eq (hwritten.spared hready).isDir_eq, hpos]
    have hreplaceable : files.isDir pos = false := by
      rw [← (hwritten.spared hready).isDir_eq pos (havoids.outside hpos), hdir]
    have hleft : moved.node =
        Function.update (host.base service files) pos (some (.file content)) := by
      rw [hnode, hwritten.node, Function.update_comm (hne pos hpos), Function.update_idem, ← hnone,
        Function.update_eq_self]
    exact .succeeds hfound hreplaceable hleft

/-- `MassData::onSetBinary`, and the session path with its body. -/
theorem setOutcome_withCacheFile (hready : host.Ready service files)
    (hfile : CacheFile service file name)
    (hfresh : files.node (host.cachePos service ++ [name]) = none)
    (hkey : req.str .key = some key) (havoids : host.Avoids service (keyPath service key))
    (refused : ℤ × Option Resp) :
    host.SetOutcome service files content req key
      (host.withCacheFile service file content refused
        (host.saveBinData service req resp file) files) := by
  obtain ⟨written, hwritten, hrun⟩ := withCacheFile_run hready hfile hfresh content refused
    (host.saveBinData service req resp file)
  rw [hrun, bind_run]
  rcases @saveBinData_cases host _ service written req resp file key hkey with
    ⟨moved, hmoved, hsave⟩ | ⟨result, hfails, hsave⟩
  · obtain ⟨hremoved, houtcome⟩ : _ ∧
        host.SetOutcome service files content req key (.ok (saved req key), moved) :=
      setOutcome_of_renamed hready hfile hwritten havoids hmoved
    rw [hsave]
    simp only [bind_run, remove_run host hremoved, pure_run]
    exact houtcome
  · rw [hsave]
    cases result with
    | error stop => exact .fails hfails (hwritten.spared hready)
    | ok answered =>
        obtain ⟨left, hremoved, hnode⟩ := hwritten.exists_removed hready hfile
        simp only [bind_run, remove_run host hremoved, pure_run]
        exact .fails hfails (spared_of_base hready hnode)

/-- A request that only reads sees the content besides, and leaves at most a file in the
cache. -/
theorem withCacheFile_read {α : Type} (hready : host.Ready service files)
    (hfile : CacheFile service file name)
    (hfresh : files.node (host.cachePos service ++ [name]) = none) (content : Bytes)
    (refused : α) (read : Files → Except Stop α) :
    ∃ written, host.Written service files name content written ∧
      ∃ left : Files,
        host.withCacheFile service file content refused (fun files => (read files, files)) files =
          (read written, left) ∧ host.Spared service files left := by
  obtain ⟨written, hwritten, hrun⟩ := withCacheFile_run hready hfile hfresh content refused
    (fun files => (read files, files))
  refine ⟨written, hwritten, ?_⟩
  rw [hrun, bind_run]
  cases hread : read written with
  | error stop => exact ⟨written, rfl, hwritten.spared hready⟩
  | ok answered =>
      obtain ⟨left, hremoved, hnode⟩ := hwritten.exists_removed hready hfile
      refine ⟨left, ?_, spared_of_base hready hnode⟩
      simp only [bind_run, remove_run host hremoved, pure_run]

end Setting

section Replacing

variable {Response : Type} {host : Host} {service : Service Response} {files left : Files}
  {path : Path} {pos : List Bytes} {content : Bytes} (havoids : host.Avoids service path)
  (hfound : host.locate files path = some pos) (hfree : files.isDir pos = false)
  (hnode : left.node = Function.update (host.base service files) pos (some (.file content)))

include havoids hfound hfree hnode

theorem kept_of_replaced (step : List Bytes) (hstep : host.base service files step = some .dir) :
    left.node step = some .dir := by
  rw [hnode, Function.update_of_ne]
  · exact hstep
  · rintro rfl
    rw [base_of_outside (havoids.outside hfound), ← FileTree.isDir_iff, hfree] at hstep
    cases hstep

omit havoids in
theorem isDir_eq_of_replaced (step : List Bytes) (hstep : ¬ host.cachePos service <+: step) :
    left.isDir step = files.isDir step := by
  by_cases hpos : step = pos
  · subst hpos
    have hfile : left.node step = some (.file content) := by
      rw [hnode, Function.update_self]
    rw [hfree, FileTree.not_isDir_of_file hfile]
  · rw [FileTree.isDir, FileTree.isDir, hnode, Function.update_of_ne hpos, base_of_outside hstep]

/-- The file of the key has the content. -/
theorem find_replaced : host.find left path = some (.file content) := by
  have hlocate : host.locate left path = some pos := by
    rw [havoids.locate_eq (isDir_eq_of_replaced hfound hfree hnode), hfound]
  rw [find_eq_of_locate hlocate, hnode, Function.update_self]

omit havoids in
/-- Any other file is what it was. -/
theorem find_of_replaced {other : Path} (hother : host.Avoids service other)
    (hne : host.locate files other ≠ some pos) : host.find left other = host.find files other := by
  rw [find, find, hother.locate_eq (isDir_eq_of_replaced hfound hfree hnode)]
  cases hlocate : host.locate files other with
  | none => rfl
  | some place =>
      have hplace : place ≠ pos := by
        rintro rfl
        exact hne hlocate
      rw [Option.bind_some, hnode, Function.update_of_ne hplace,
        base_of_outside (hother.outside hlocate)]
      rfl

end Replacing

end FeedsService.MassData.Host
