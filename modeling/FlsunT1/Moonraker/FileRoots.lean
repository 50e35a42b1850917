/-
  Moonraker/FileRoots.lean --- paths of requests (moonraker/components/file_manager).

  A request names a file by a path that begins with the name of a root, or by the parts of
  an upload form.  The path on the disk is tested by the text of the root's path in front of
  it, which is also the front of a path beside the root whose name goes on.
-/
import Mathlib.Data.Finset.Insert
import FlsunT1.Library.ConfigParser
import FlsunT1.Library.PosixPath
import FlsunT1.Library.Run

set_option autoImplicit false

namespace FlsunT1.Moonraker

open Library PosixPath

/-! ## The registered roots -/

/-- What the disk holds, as `os` and `os.path` tell it. -/
structure Disk where
  cwd : Text
  expanduser : Text → Text
  islink : Text → Bool
  realpath : Text → Text
  isdir : Text → Bool
  isfile : Text → Bool
  readable : Text → Bool
  writable : Text → Bool
  cwd_absolute : cwd.head? = some '/'
  realpath_normal : ∀ path, Normal (realpath path)

/-- `file_paths` and `full_access_roots` -/
structure Roots where
  filePaths : Dict Text Text
  fullAccessRoots : Finset Text

def Roots.init : Roots := ⟨.empty, ∅⟩

/-- `register_directory`, with what it returns. -/
def registerDirectory (disk : Disk) (root : Text) (path : Option Text) (fullAccess : Bool)
    (w : Roots) : Roots × Bool :=
  match path with
  | none => (w, false)
  | some path =>
    let path := abspath disk.cwd (disk.expanduser path)
    let path := if disk.islink path then disk.realpath path else path
    if disk.isdir path = false ∨ path = ['/'] then (w, false)
    else
      let w := if fullAccess then { w with fullAccessRoots := insert root w.fullAccessRoots } else w
      if disk.readable path = false ∨ (fullAccess = true ∧ disk.writable path = false) then
        (w, false)
      else if some path ≠ w.filePaths.get root then
        ({ w with filePaths := w.filePaths.set root path }, true)
      else (w, true)

/-- The calls that change the roots, each on the disk as it is then. -/
inductive RootEvent
  | register (disk : Disk) (root : Text) (path : Option Text) (fullAccess : Bool)
  | disableWriteAccess

def Roots.step (w : Roots) : RootEvent → Roots
  | .register disk root path fullAccess => (registerDirectory disk root path fullAccess w).1
  | .disableWriteAccess => { w with fullAccessRoots := ∅ }

/-- Roots that were registered one after another. -/
def Registered (es : List RootEvent) (w : Roots) : Prop :=
  Run (fun w e w' => w' = Roots.step w e) .init es w

/-! ## Requests -/

inductive PathError
  | invalidRoot (root : Text)
  | outsideRoot (request root : Text)
  | noFilename
  | rootNotAvailable (root : Text)
  | cannotWrite (path : Text)
  | readOnly (path : Text)
  deriving DecidableEq, Repr

/-- `path.strip("/").split("/", 1)`: the text to the first slash, and the text behind it. -/
def splitRoot (path : Text) : Text × Option Text :=
  let path := (path.dropWhile (· = '/')).rdropWhile (· = '/')
  match path.dropWhile (· ≠ '/') with
  | [] => (path, none)
  | _ :: rest => (path.takeWhile (· ≠ '/'), some rest)

/-- `_convert_request_path` -/
def convertRequestPath (disk : Disk) (w : Roots) (request : Text) :
    Except PathError (Text × Text) :=
  let (root, rest) := splitRoot (normpath request)
  match w.filePaths.get root with
  | none => .error (.invalidRoot root)
  | some rootPath =>
    match rest with
    | none => .ok (root, rootPath)
    | some rest =>
      let destPath := abspath disk.cwd (join rootPath rest)
      if rootPath.isPrefixOf destPath then .ok (root, destPath)
      else .error (.outsideRoot request root)

/-! ## Uploads -/

/-- The fields of an upload form. -/
structure UploadArgs where
  filename : Option Text
  root : Option Text
  path : Option Text
  print : Option Text
  tmpFilePath : Text
  deriving DecidableEq

/-- What `_parse_upload_args` returns. -/
structure UploadInfo where
  root : Text
  filename : Text
  dirPath : Text
  destPath : Text
  tmpFilePath : Text
  startPrint : Bool
  unzipUfp : Bool
  ext : Text
  isLink : Bool
  deriving DecidableEq

/-- The name of a file in front of its extension, with another one. -/
def withGcodeExt (path : Text) : Text := (splitext path).1 ++ ".gcode".toList

def lstripSlash (t : Text) : Text := t.dropWhile (· = '/')

/-- `_parse_upload_args` -/
def parseUploadArgs (disk : Disk) (lower : Lowercase) (w : Roots) (args : UploadArgs) :
    Except PathError UploadInfo :=
  match args.filename with
  | none => .error .noFilename
  | some argFilename =>
    let root := lower.optionxform (args.root.getD "gcodes".toList)
    match w.filePaths.get root with
    | none => .error (.rootNotAvailable root)
    | some rootPath =>
      let dirPath := lstripSlash (args.path.getD [])
      let filename := lstripSlash (Text.strip argFilename)
      let filename := if dirPath = [] then filename else join dirPath filename
      let (filename, destPath, dirPath) :=
        if disk.isfile rootPath then (basename rootPath, rootPath, [])
        else (filename, abspath disk.cwd (join rootPath filename), dirPath)
      if rootPath.isPrefixOf destPath then
        let ext := lower.optionxform (splitext destPath).2
        let unzipUfp := decide (ext = ".ufp".toList ∧ root = "gcodes".toList)
        let filename := if unzipUfp then withGcodeExt filename else filename
        let destPath := if unzipUfp then withGcodeExt destPath else destPath
        if disk.isfile destPath = true ∧ disk.writable destPath = false then
          .error (.readOnly destPath)
        else
          .ok
            { root := root
              filename := filename
              dirPath := dirPath
              destPath := destPath
              tmpFilePath := args.tmpFilePath
              startPrint := decide (args.print.getD "false".toList = "true".toList)
              unzipUfp := unzipUfp
              ext := ext
              isLink := disk.islink destPath }
      else .error (.cannotWrite destPath)

/-! ## Roots are normal paths -/

/-- The roots are paths that `os.path.abspath` or `os.path.realpath` gave. -/
def NormalRoots (w : Roots) : Prop :=
  ∀ root path, w.filePaths.get root = some path → Normal path

theorem registerDirectory_normal {disk : Disk} {root : Text} {path : Option Text}
    {fullAccess : Bool} {w : Roots} (h : NormalRoots w) :
    NormalRoots (registerDirectory disk root path fullAccess w).1 := by
  cases path with
  | none => exact h
  | some path =>
    have habs := normal_abspath disk.cwd_absolute (disk.expanduser path)
    have hnormal : Normal (if disk.islink (abspath disk.cwd (disk.expanduser path)) then
        disk.realpath (abspath disk.cwd (disk.expanduser path)) else
        abspath disk.cwd (disk.expanduser path)) := by
      split
      · exact disk.realpath_normal _
      · exact habs
    simp only [registerDirectory]
    generalize (if disk.islink (abspath disk.cwd (disk.expanduser path)) then
        disk.realpath (abspath disk.cwd (disk.expanduser path)) else
        abspath disk.cwd (disk.expanduser path)) = stored at hnormal ⊢
    have hpaths : ∀ access : Finset Text, NormalRoots { w with fullAccessRoots := access } :=
      fun _ => h
    have hkeep : NormalRoots
        (if fullAccess then { w with fullAccessRoots := insert root w.fullAccessRoots } else w) := by
      split
      · exact hpaths _
      · exact h
    generalize (if fullAccess then { w with fullAccessRoots := insert root w.fullAccessRoots }
      else w) = granted at hkeep ⊢
    split
    · exact h
    · split
      · exact hkeep
      · split
        · intro root' path' hget
          rw [Dict.get_set] at hget
          split at hget
          · cases hget
            exact hnormal
          · exact hkeep root' path' hget
        · exact hkeep

theorem Registered.normal {es : List RootEvent} {w : Roots} (h : Registered es w) :
    NormalRoots w := by
  refine Run.invariant h (fun root path hget => ?_) fun s e t hs hstep => ?_
  · cases hget
  · subst hstep
    cases e with
    | register disk root path fullAccess => exact registerDirectory_normal hs
    | disableWriteAccess => exact hs

/-! ## What is joined to a root -/

/-- The path lies in the directory that is registered for the root. -/
def Inside (w : Roots) (root path : Text) : Prop :=
  ∃ dir, w.filePaths.get root = some dir ∧ Below dir path

/-- The components of a relative path, from those of a directory. -/
def reached (dir rel : Text) : List Text := resolve (components dir) (rel.splitOn '/')

theorem plain_reached {dir : Text} (h : Normal dir) (rel : Text) :
    ∀ c ∈ reached dir rel, Plain c := by
  obtain ⟨-, -, hplain, -⟩ := h.exists_eq
  exact plain_resolve hplain fun c hc => not_mem_of_mem_splitOn hc

theorem abspath_join_reached {dir rel : Text} (cwd : Text) (h : Normal dir)
    (hrel : rel.head? ≠ some '/') :
    ∃ n, dir = render n (components dir) ∧ abspath cwd (join dir rel) = render n (reached dir rel) := by
  obtain ⟨n, -, hdir, hpath⟩ := abspath_join cwd h hrel
  exact ⟨n, hdir, hpath⟩

theorem components_abspath_join {dir rel : Text} (cwd : Text) (h : Normal dir)
    (hrel : rel.head? ≠ some '/') :
    components (abspath cwd (join dir rel)) = reached dir rel := by
  obtain ⟨n, -, hpath⟩ := abspath_join_reached cwd h hrel
  rw [hpath]
  exact components_render (plain_reached h rel) n

theorem isPrefixOf_abspath_join {dir rel : Text} (cwd : Text) (h : Normal dir)
    (hrel : rel.head? ≠ some '/') :
    dir.isPrefixOf (abspath cwd (join dir rel)) = true ↔
      components dir <+: reached dir rel ∨ Beside (components dir) (reached dir rel) := by
  obtain ⟨n, hdir, hpath⟩ := abspath_join_reached cwd h hrel
  obtain ⟨-, -, hplain, -⟩ := h.exists_eq
  have hfront := render_prefix (n := n) hplain (plain_reached h rel)
  rw [← hdir] at hfront
  rw [List.isPrefixOf_iff_prefix, hpath]
  exact hfront

/-! ## The path of a request -/

theorem splitRoot_normpath {request root rest : Text}
    (h : splitRoot (normpath request) = (root, some rest)) :
    ∃ comps, (∀ c ∈ comps, Solid c) ∧ comps ≠ [] ∧ rest = List.intercalate ['/'] comps ∧
      (root ≠ dotdot → ∀ c ∈ comps, Plain c) := by
  obtain ⟨n, comps, hdots, hpath⟩ := normpath_cases request
  have hsolid := hdots.solid
  rw [hpath] at h
  by_cases hnil : comps = []
  · -- the path of no components has nothing behind its root
    subst hnil
    have htext : render n [] = List.replicate n '/' := List.append_nil _
    have hslashes : (List.replicate n '/').dropWhile (· = '/') = [] :=
      List.dropWhile_eq_nil_iff.mpr fun c hc => by simp [List.eq_of_mem_replicate hc]
    rw [htext] at h
    split at h
    · cases h
    · rw [splitRoot, hslashes] at h
      cases h
  · have hinter : List.intercalate ['/'] comps ≠ [] := fun h0 =>
      hnil (intercalate_eq_nil hsolid h0)
    have hstrip : ((render n comps).dropWhile (· = '/')).rdropWhile (· = '/') =
        List.intercalate ['/'] comps := by
      have hfront : (render n comps).dropWhile (· = '/') = List.intercalate ['/'] comps := by
        rw [render, List.dropWhile_append_of_pos fun c hc => by simp [List.eq_of_mem_replicate hc]]
        obtain ⟨c, t, hct⟩ := List.exists_cons_of_ne_nil hinter
        have hc := head_intercalate hsolid
        rw [hct, List.head?_cons] at hc
        rw [hct, List.dropWhile_cons_of_neg]
        simpa using hc
      have hlast := getLast_intercalate hsolid
      rw [hfront, List.rdropWhile_eq_self_iff]
      intro hne hslash
      rw [List.getLast?_eq_some_getLast hne] at hlast
      exact hlast (congrArg some (by simpa using hslash))
    have hne : render n comps ≠ [] := fun h0 => hinter (List.append_eq_nil_iff.mp h0).2
    rw [if_neg hne, splitRoot, hstrip] at h
    obtain ⟨first, comps, rfl⟩ := List.exists_cons_of_ne_nil hnil
    have hfirst := hsolid first List.mem_cons_self
    have hrestSolid : ∀ c ∈ comps, Solid c := fun c hc => hsolid c (List.mem_cons_of_mem _ hc)
    have hname : ∀ c ∈ first, (decide (c ≠ '/')) = true := fun c hc =>
      decide_eq_true fun hslash => hfirst.no_slash (hslash ▸ hc)
    by_cases hone : comps = []
    · subst hone
      rw [List.intercalate_singleton, List.dropWhile_eq_nil_iff.mpr hname] at h
      cases h
    · rw [intercalate_cons hone, List.dropWhile_append_of_pos hname,
        List.takeWhile_append_of_pos hname, List.dropWhile_cons_of_neg (by decide),
        List.takeWhile_cons_of_neg (by decide), List.append_nil] at h
      obtain ⟨rfl, hrest⟩ := Prod.mk.inj h
      refine ⟨comps, hrestSolid, hone, (Option.some.inj hrest).symm, fun hroot => ?_⟩
      obtain ⟨k, plain, hcomps, hplain⟩ := hdots
      cases k with
      | zero =>
        rw [List.replicate_zero, List.nil_append] at hcomps
        exact fun c hc => hplain c (hcomps ▸ List.mem_cons_of_mem _ hc)
      | succ k =>
        rw [List.replicate_succ, List.cons_append] at hcomps
        exact absurd (List.cons.inj hcomps).1 hroot

/-! ## The condition -/

/-- What follows the name of the root does not lead into a directory beside the root's whose
name goes on where that of the root's ends. -/
def RequestCondition (w : Roots) (request : Text) : Prop :=
  ∀ root rest dir, splitRoot (normpath request) = (root, some rest) →
    w.filePaths.get root = some dir → ¬ Beside (components dir) (reached dir rest)

/-- The root of an upload. -/
def uploadRoot (lower : Lowercase) (args : UploadArgs) : Text :=
  lower.optionxform (args.root.getD "gcodes".toList)

/-- The path of an upload, relative to its root. -/
def uploadPath (args : UploadArgs) (filename : Text) : Text :=
  let dirPath := lstripSlash (args.path.getD [])
  let filename := lstripSlash (Text.strip filename)
  if dirPath = [] then filename else join dirPath filename

/-- The last component has the extension `.ufp`. -/
def UfpNamed (lower : Lowercase) (dir : Text) : Prop :=
  lower.optionxform (splitext dir).2 = ".ufp".toList

instance (lower : Lowercase) (dir : Text) : Decidable (UfpNamed lower dir) :=
  inferInstanceAs (Decidable (lower.optionxform (splitext dir).2 = ".ufp".toList))

/-- The path of the form does not lead into a directory beside that of the root whose name
goes on where the root's ends, and the root `gcodes` is none that is taken for an archive. -/
def UploadCondition (lower : Lowercase) (w : Roots) (args : UploadArgs) : Prop :=
  ∀ filename dir, args.filename = some filename →
    w.filePaths.get (uploadRoot lower args) = some dir →
      ¬ Beside (components dir) (reached dir (uploadPath args filename)) ∧
      ¬(uploadRoot lower args = "gcodes".toList ∧ UfpNamed lower dir)

/-! ## Requests stay inside -/

/-- A disk of directories only. -/
def Disk.ofDirectories : Disk where
  cwd := ['/']
  expanduser path := path
  islink _ := false
  realpath _ := render 1 []
  isdir _ := true
  isfile _ := false
  readable _ := true
  writable _ := true
  cwd_absolute := rfl
  realpath_normal _ := ⟨1, [], Or.inl rfl, fun _ hc => absurd hc List.not_mem_nil, rfl⟩

theorem inside_iff {w : Roots} {root dir path : Text} (hget : w.filePaths.get root = some dir) :
    Inside w root path ↔ Below dir path := by
  constructor
  · rintro ⟨dir', hget', hbelow⟩
    rw [hget] at hget'
    rw [Option.some.inj hget']
    exact hbelow
  · exact fun h => ⟨dir, hget, h⟩

theorem below_abspath_join_iff {dir rel : Text} (cwd : Text) (h : Normal dir)
    (hrel : rel.head? ≠ some '/') :
    (dir.isPrefixOf (abspath cwd (join dir rel)) = true → Below dir (abspath cwd (join dir rel))) ↔
      ¬ Beside (components dir) (reached dir rel) := by
  rw [isPrefixOf_abspath_join cwd h hrel, Below, components_abspath_join cwd h hrel]
  constructor
  · exact fun himp hbeside => not_prefix_of_beside hbeside (himp (Or.inr hbeside))
  · exact fun hnot hor => hor.resolve_right hnot

/-- A request is answered with a path in its root if and only if the condition holds. -/
theorem convertRequestPath_inside_iff {w : Roots} (hw : NormalRoots w) (request : Text) :
    (∀ disk root path, convertRequestPath disk w request = .ok (root, path) →
      Inside w root path) ↔ RequestCondition w request := by
  constructor
  · intro h root rest dir hsplit hget
    obtain ⟨comps, hsolid, -, rfl, -⟩ := splitRoot_normpath hsplit
    rw [← below_abspath_join_iff ['/'] (hw root dir hget) (head_intercalate hsolid),
      ← inside_iff hget]
    intro htest
    refine h .ofDirectories root _ ?_
    simp only [convertRequestPath, hsplit, hget]
    exact if_pos htest
  · intro hcond disk root path hok
    rw [convertRequestPath] at hok
    cases hsplit : splitRoot (normpath request) with
    | mk name rest =>
      simp only [hsplit] at hok
      cases hget : w.filePaths.get name with
      | none => simp only [hget, reduceCtorEq] at hok
      | some dir =>
        cases rest with
        | none =>
          simp only [hget, Except.ok.injEq, Prod.mk.injEq] at hok
          obtain ⟨rfl, rfl⟩ := hok
          exact (inside_iff hget).mpr List.prefix_rfl
        | some rest =>
          simp only [hget] at hok
          split at hok
          · next htest =>
            obtain ⟨comps, hsolid, -, rfl, -⟩ := splitRoot_normpath hsplit
            simp only [Except.ok.injEq, Prod.mk.injEq] at hok
            obtain ⟨rfl, rfl⟩ := hok
            have hbelow := below_abspath_join_iff disk.cwd (hw name dir hget)
              (head_intercalate hsolid)
            exact (inside_iff hget).mpr (hbelow.mpr (hcond name _ dir hsplit hget) htest)
          · cases hok

/-! ## Uploads stay inside -/

theorem head_lstripSlash (t : Text) : (lstripSlash t).head? ≠ some '/' := by
  have h := List.head?_dropWhile_not (· = '/') t
  rw [lstripSlash]
  intro hslash
  rw [hslash] at h
  simp at h

theorem head_uploadPath (args : UploadArgs) (filename : Text) :
    (uploadPath args filename).head? ≠ some '/' := by
  have hname := head_lstripSlash (Text.strip filename)
  have hdir := head_lstripSlash (args.path.getD [])
  rw [uploadPath]
  split
  · exact hname
  · next hne =>
    rw [join, if_neg hname]
    split
    · rw [List.head?_append_of_ne_nil _ hne]
      exact hdir
    · rw [List.head?_append_of_ne_nil _ hne]
      exact hdir

theorem ufp_length {lower : Lowercase} {ext : Text}
    (h : lower.optionxform ext = ".ufp".toList) : ext ≠ [] ∧ ext.length ≤ 4 := by
  have hlowers := lower.lowers ext
  rw [h] at hlowers
  refine ⟨fun hnil => ?_, hlowers.length_le⟩
  have := hlowers.eq_nil_iff.mpr hnil
  cases this

/-- The path that is taken for an archive has a last component, which gets another name. -/
theorem components_withGcodeExt {lower : Lowercase} {n : Nat} {comps : List Text}
    (hplain : ∀ c ∈ comps, Plain c) (hufp : UfpNamed lower (render n comps)) :
    ∃ parent name, comps = parent ++ [name] ∧ (splitName name).2.length ≤ 4 ∧
      components (withGcodeExt (render n comps)) =
        parent ++ [(splitName name).1 ++ ".gcode".toList] := by
  rcases List.eq_nil_or_concat' comps with rfl | ⟨parent, name, rfl⟩
  · rw [UfpNamed, splitext_render_nil] at hufp
    exact absurd rfl (ufp_length hufp).1
  · rw [UfpNamed, splitext_render hplain] at hufp
    refine ⟨parent, name, rfl, (ufp_length hufp).2, ?_⟩
    rw [withGcodeExt, splitext_render hplain, render_concat_append, components_render]
    intro c hc
    rcases List.mem_append.mp hc with hc | hc
    · exact hplain c (List.mem_append_left _ hc)
    · have hname := (hplain name (List.mem_append_right _ List.mem_cons_self)).no_slash
      rw [List.mem_singleton.mp hc]
      refine ⟨⟨?_, ?_⟩, ?_, ?_⟩
      · exact List.append_ne_nil_of_right_ne_nil _ (by decide)
      · rw [List.mem_append, not_or]
        exact ⟨no_slash_stem hname, by decide⟩
      · exact fun h => absurd (congrArg List.length h) (by simp [dot])
      · exact fun h => absurd (congrArg List.length h) (by simp [dotdot])

/-- The new name of an archive is below the root when the archive lies there and is not the
root itself. -/
theorem prefix_withGcodeExt_iff {lower : Lowercase} {n : Nat} {root comps : List Text}
    (hplain : ∀ c ∈ comps, Plain c) (hufp : UfpNamed lower (render n comps))
    (htest : root <+: comps ∨ Beside root comps) :
    root <+: components (withGcodeExt (render n comps)) ↔
      ¬ Beside root comps ∧ root ≠ comps := by
  obtain ⟨parent, name, rfl, hext, hcomps⟩ := components_withGcodeExt hplain hufp
  have hname := splitName_append name
  -- what the new name begins with is no other name with the same stem
  have hstem : ∀ more, name = (splitName name).1 ++ ".gcode".toList ++ more → False := by
    intro more hmore
    have heq := hname.trans hmore
    rw [List.append_assoc, List.append_right_inj] at heq
    have hlen := congrArg List.length heq
    rw [List.length_append] at hlen
    have hgcode : (".gcode".toList : Text).length = 6 := rfl
    omega
  rw [hcomps]
  constructor
  · intro hbelow
    constructor
    · rintro ⟨dir, start, more, rest, hmore, rfl, hbeside⟩
      rcases List.eq_nil_or_concat' rest with rfl | ⟨rest, last, rfl⟩
      · obtain ⟨rfl, hlast⟩ := List.append_inj' hbeside rfl
        rw [List.prefix_append_right_inj, List.cons_prefix_cons] at hbelow
        rw [hbelow.1] at hlast
        exact hstem more (List.cons.inj hlast).1
      · rw [← List.cons_append, ← List.append_assoc] at hbeside
        obtain ⟨rfl, -⟩ := List.append_inj' hbeside rfl
        rw [List.append_assoc, List.prefix_append_right_inj, List.cons_append,
          List.cons_prefix_cons] at hbelow
        exact hmore (List.append_right_eq_self.mp hbelow.1.symm)
    · rintro rfl
      rw [List.prefix_append_right_inj, List.cons_prefix_cons] at hbelow
      exact hstem [] (hbelow.1.trans (List.append_nil _).symm)
  · rintro ⟨hnot, hne⟩
    have hbelow := htest.resolve_right hnot
    rcases List.prefix_concat_iff.mp hbelow with heq | hparent
    · exact absurd heq hne
    · exact hparent.trans (List.prefix_append _ _)

/-- The path on the disk that an upload is tested with. -/
def testedPath (disk : Disk) (args : UploadArgs) (filename dir : Text) : Text :=
  if disk.isfile dir then dir else abspath disk.cwd (join dir (uploadPath args filename))

/-- The path on the disk that an upload gets. -/
def storedPath (lower : Lowercase) (root path : Text) : Text :=
  if UfpNamed lower path ∧ root = "gcodes".toList then withGcodeExt path else path

/-- What an accepted upload is. -/
theorem parseUploadArgs_eq_ok {disk : Disk} {lower : Lowercase} {w : Roots} {args : UploadArgs}
    {info : UploadInfo} (h : parseUploadArgs disk lower w args = .ok info) :
    ∃ filename dir, args.filename = some filename ∧
      w.filePaths.get (uploadRoot lower args) = some dir ∧
      dir.isPrefixOf (testedPath disk args filename dir) = true ∧
      info.root = uploadRoot lower args ∧
      info.destPath = storedPath lower info.root (testedPath disk args filename dir) := by
  rw [parseUploadArgs] at h
  cases hname : args.filename with
  | none => simp only [hname, reduceCtorEq] at h
  | some filename =>
    simp only [hname] at h
    cases hget : w.filePaths.get (uploadRoot lower args) with
    | none =>
      rw [uploadRoot] at hget
      simp only [hget, reduceCtorEq] at h
    | some dir =>
      refine ⟨filename, dir, rfl, rfl, ?_⟩
      rw [uploadRoot] at hget
      simp only [hget] at h
      have hpath : (if disk.isfile dir then (basename dir, dir, []) else
          (uploadPath args filename, abspath disk.cwd (join dir (uploadPath args filename)),
            lstripSlash (args.path.getD []))).2.1 = testedPath disk args filename dir := by
        rw [testedPath]
        split <;> rfl
      rw [uploadPath] at hpath
      simp only [hpath] at h
      generalize testedPath disk args filename dir = tested at h
      split at h
      · next htest =>
        refine ⟨htest, ?_⟩
        generalize hstored : (if decide (lower.optionxform (splitext tested).2 = ".ufp".toList ∧
          lower.optionxform (args.root.getD "gcodes".toList) = "gcodes".toList) = true then
            withGcodeExt tested else tested) = stored at h
        split at h
        · cases h
        · cases h
          refine ⟨rfl, ?_⟩
          rw [← hstored]
          exact if_congr decide_eq_true_iff rfl rfl
      · cases h

theorem parseUploadArgs_accepts {disk : Disk} {lower : Lowercase} {w : Roots} {args : UploadArgs}
    {filename dir : Text} (hname : args.filename = some filename)
    (hget : w.filePaths.get (uploadRoot lower args) = some dir)
    (htest : dir.isPrefixOf (testedPath disk args filename dir) = true)
    (hwrite : ∀ path, disk.writable path = true) :
    ∃ info, parseUploadArgs disk lower w args = .ok info := by
  have hpath : (if disk.isfile dir then (basename dir, dir, []) else
      (uploadPath args filename, abspath disk.cwd (join dir (uploadPath args filename)),
        lstripSlash (args.path.getD []))).2.1 = testedPath disk args filename dir := by
    rw [testedPath]
    split <;> rfl
  rw [uploadPath] at hpath
  rw [uploadRoot] at hget
  rw [parseUploadArgs]
  simp only [hname, hget, hpath, htest, hwrite, Bool.true_eq_false, and_false, if_true, if_false]
  exact ⟨_, rfl⟩

/-- Every upload is stored in its root if and only if the condition holds. -/
theorem parseUploadArgs_inside_iff {w : Roots} (hw : NormalRoots w) (lower : Lowercase)
    (args : UploadArgs) :
    (∀ disk info, parseUploadArgs disk lower w args = .ok info →
      Inside w info.root info.destPath) ↔ UploadCondition lower w args := by
  constructor
  · intro h filename dir hname hget
    obtain ⟨n, hn, hplain, hdir⟩ := (hw _ dir hget).exists_eq
    have hinside (disk : Disk) (hwrite : ∀ path, disk.writable path = true)
        (htest : dir.isPrefixOf (testedPath disk args filename dir) = true) :
        Below dir (storedPath lower (uploadRoot lower args) (testedPath disk args filename dir)) := by
      obtain ⟨info, hinfo⟩ := parseUploadArgs_accepts hname hget htest hwrite
      obtain ⟨filename', dir', hname', hget', -, hroot, hdest⟩ := parseUploadArgs_eq_ok hinfo
      rw [hname, Option.some.injEq] at hname'
      rw [hget, Option.some.injEq] at hget'
      subst hname' hget'
      have hin := h disk info hinfo
      rw [hdest, hroot, inside_iff hget] at hin
      exact hin
    constructor
    · intro hbeside
      have hrel := head_uploadPath args filename
      have htested : testedPath .ofDirectories args filename dir =
          abspath ['/'] (join dir (uploadPath args filename)) := if_neg Bool.false_ne_true
      have hin := hinside .ofDirectories (fun _ => rfl) (by
        rw [htested, isPrefixOf_abspath_join ['/'] (hw _ dir hget) hrel]
        exact Or.inr hbeside)
      rw [htested, storedPath] at hin
      obtain ⟨m, -, hpath⟩ := abspath_join_reached ['/'] (hw _ dir hget) hrel
      rw [hpath] at hin
      split at hin
      · next hufp =>
        exact ((prefix_withGcodeExt_iff (plain_reached (hw _ dir hget) _) hufp.1
          (Or.inr hbeside)).mp hin).1 hbeside
      · rw [Below, components_render (plain_reached (hw _ dir hget) _)] at hin
        exact not_prefix_of_beside hbeside hin
    · rintro ⟨hgcodes, hufp⟩
      -- the path of the root is now one of a file
      have hin := hinside { Disk.ofDirectories with isfile := fun _ => true } (fun _ => rfl)
        (List.isPrefixOf_iff_prefix.mpr (List.prefix_rfl : dir <+: dir))
      have hstored : storedPath lower (uploadRoot lower args) dir = withGcodeExt dir :=
        if_pos ⟨hufp, hgcodes⟩
      rw [show testedPath { Disk.ofDirectories with isfile := fun _ => true } args filename dir = dir
        from rfl, hstored, Below] at hin
      rw [hdir] at hufp
      have hiff := prefix_withGcodeExt_iff hplain hufp (Or.inl List.prefix_rfl)
      rw [← hdir] at hiff
      exact (hiff.mp hin).2 rfl
  · intro hcond disk info hok
    obtain ⟨filename, dir, hname, hget, htest, hroot, hdest⟩ := parseUploadArgs_eq_ok hok
    obtain ⟨hbeside, hufp⟩ := hcond filename dir hname hget
    obtain ⟨n, hn, hplain, hdir⟩ := (hw _ dir hget).exists_eq
    have hrel := head_uploadPath args filename
    rw [hdest, hroot, inside_iff hget]
    rw [testedPath] at htest ⊢
    split at htest
    · next hfile =>
      rw [if_pos hfile, storedPath, if_neg fun h => hufp ⟨h.2, h.1⟩]
      exact List.prefix_rfl
    · next hfile =>
      obtain ⟨m, hdir', hpath⟩ := abspath_join_reached disk.cwd (hw _ dir hget) hrel
      rw [isPrefixOf_abspath_join disk.cwd (hw _ dir hget) hrel] at htest
      rw [if_neg hfile, storedPath, hpath]
      split
      · next harchive =>
        refine (prefix_withGcodeExt_iff (plain_reached (hw _ dir hget) _) harchive.1 htest).mpr
          ⟨hbeside, fun hsame => hufp ⟨harchive.2, ?_⟩⟩
        rw [hdir', hsame]
        exact harchive.1
      · rw [Below, components_render (plain_reached (hw _ dir hget) _)]
        exact htest.resolve_right hbeside

/-- For roots that were registered, requests and uploads stay inside their roots, on every
disk, if and only if they do not lead beside them. -/
theorem requests_inside_iff {es : List RootEvent} {w : Roots} (hrun : Registered es w)
    (lower : Lowercase) (request : Text) (args : UploadArgs) :
    ((∀ disk root path, convertRequestPath disk w request = .ok (root, path) →
      Inside w root path) ↔ RequestCondition w request) ∧
    ((∀ disk info, parseUploadArgs disk lower w args = .ok info →
      Inside w info.root info.destPath) ↔ UploadCondition lower w args) :=
  ⟨convertRequestPath_inside_iff hrun.normal request,
    parseUploadArgs_inside_iff hrun.normal lower args⟩

/-- The call that registers the root of the print files. -/
def registerGcodes : RootEvent :=
  .register .ofDirectories "gcodes".toList (some "/home/pi/gcodes".toList) true

def gcodesRoots : Roots := Roots.init.step registerGcodes

theorem registered_gcodesRoots : Registered [registerGcodes] gcodesRoots := Run.single rfl

/-- An upload form with the name of a file. -/
def uploadForm (filename : Text) : UploadArgs :=
  { filename := some filename, root := none, path := none, print := none, tmpFilePath := [] }

theorem requests_inside_iff_gcodes :
    ((∀ disk root path,
        convertRequestPath disk gcodesRoots "gcodes/a/../b.gcode".toList = .ok (root, path) →
        Inside gcodesRoots root path) ↔
      RequestCondition gcodesRoots "gcodes/a/../b.gcode".toList) ∧
    ((∀ disk info,
        parseUploadArgs disk .ascii gcodesRoots (uploadForm "a/b.gcode".toList) = .ok info →
        Inside gcodesRoots info.root info.destPath) ↔
      UploadCondition .ascii gcodesRoots (uploadForm "a/b.gcode".toList)) :=
  requests_inside_iff registered_gcodesRoots .ascii _ _

/-- An upload to `../gcodes_old` is stored beside the root. -/
theorem upload_beside_gcodes :
    Registered [registerGcodes] gcodesRoots ∧
    ∃ info, parseUploadArgs .ofDirectories .ascii gcodesRoots
        (uploadForm "../gcodes_old/b.gcode".toList) = .ok info ∧
      ¬ Inside gcodesRoots info.root info.destPath := by
  have hstored : (parseUploadArgs .ofDirectories .ascii gcodesRoots
      (uploadForm "../gcodes_old/b.gcode".toList)).toOption.map
        (fun info => (info.root, info.destPath)) =
      some ("gcodes".toList, "/home/pi/gcodes_old/b.gcode".toList) := by decide
  have hget : gcodesRoots.filePaths.get "gcodes".toList = some "/home/pi/gcodes".toList := by
    decide
  obtain ⟨info, hinfo, hpath⟩ := Option.map_eq_some_iff.mp hstored
  obtain ⟨hroot, hdest⟩ := Prod.mk.inj hpath
  refine ⟨registered_gcodesRoots, info, toOption_eq_some.mp hinfo, ?_⟩
  rw [hroot, hdest, inside_iff hget]
  decide

end FlsunT1.Moonraker
