/-
  Moonraker/MetadataMirror.lean --- the metadata in memory against the database.

  The two agree apart from the keys whose `pop` has not started.  A write under such a key is
  undone in the database when it starts; that, records that are not stored, and moves over files
  that are still to be moved are what a step has to avoid.
-/
import FlsunT1.Library.Run
import FlsunT1.Moonraker.MetadataStorage
import FlsunT1.Moonraker.NamespaceView

set_option autoImplicit false

namespace FlsunT1.Moonraker

open Library PosixPath

variable {F : Type} {env : StorageEnv F}

namespace MetadataStorage

/-! ## Agreement -/

/-- The namespace holds `f`, which is what the dictionary holds except under the keys of
`hidden`. -/
structure Agrees (env : StorageEnv F) (s : MetadataStorage F) (hidden : String → Prop)
    (f : String → Option (Value F)) : Prop where
  holds : Holds env.codec metadataDb s.db f
  same : ∀ key, ¬hidden key → f key = (s.metadata.get key).map .dict
  keyed : ∀ key, s.metadata.get key ≠ none → key ≠ ""

/-- What holds between the steps. -/
structure Mirror (env : StorageEnv F) (s : MetadataStorage F) : Prop where
  agrees : ∃ f, Agrees env s (· ∈ s.pops) f
  popped : ∀ key ∈ s.pops, s.metadata.get key = none ∧ key ≠ ""

/-- Once no task is left, `as_dict` is the dictionary. -/
def Mirrored (env : StorageEnv F) (s : MetadataStorage F) : Prop :=
  s.pops = [] → ∃ d, s.db.asDict env.codec metadataDb = some d ∧
    ∀ key, d.get key = (s.metadata.get key).map .dict

/-- A move carries the records of the files to their new names. -/
def Carries (s t : MetadataStorage F) : Event F → Prop
  | .moveFile prevFname newFname => ∀ md, s.metadata.get prevFname = some md →
      t.metadata.get newFname = some md
  | .moveDirectory prevDir newDir => ∀ dir, slashed prevDir = some dir →
      ∀ fname md, dir.isPrefixOf fname.toList = true → s.metadata.get fname = some md →
        t.metadata.get (movedName dir newDir fname) = some md
  | _ => True

theorem Mirror.mirrored {s : MetadataStorage F} (hs : Mirror env s) : Mirrored env s := by
  intro hpops
  obtain ⟨f, hf⟩ := hs.agrees
  obtain ⟨d, hd, hget⟩ := hf.holds.asDict
  refine ⟨d, hd, fun key => ?_⟩
  rw [hget]
  refine hf.same key ?_
  rw [hpops]
  exact List.not_mem_nil

theorem Mirror.congr {s t : MetadataStorage F} (hs : Mirror env s)
    (hmetadata : ∀ key, t.metadata.get key = s.metadata.get key) (hdb : t.db = s.db)
    (hpops : t.pops = s.pops) : Mirror env t := by
  obtain ⟨f, hholds, hsame, hkeyed⟩ := hs.agrees
  refine ⟨⟨f, hdb ▸ hholds, fun key hkey => ?_, fun key hkey => ?_⟩, fun key hkey => ?_⟩
  · rw [hmetadata]
    exact hsame key (hpops ▸ hkey)
  · exact hkeyed key (hmetadata key ▸ hkey)
  · rw [hmetadata]
    exact hs.popped key (hpops ▸ hkey)

/-! ## Single records -/

/-- A record that is stored under a key that no task deletes. -/
def Writable (env : StorageEnv F) (s : MetadataStorage F) (key : String) (md : Metadata F) : Prop :=
  key ∉ s.pops ∧ Storable env.codec env.lmdb key (.dict md)

theorem agrees_insert {s : MetadataStorage F} {hidden : String → Prop}
    {f : String → Option (Value F)} (hs : Agrees env s hidden f) {key : String} {md : Metadata F}
    (hmd : Storable env.codec env.lmdb key (.dict md)) :
    Agrees env (s.insert env key md) hidden (Function.update f key (some (.dict md))) := by
  refine ⟨holds_insert hs.holds hmd, fun key' hkey' => ?_, fun key' hkey' => ?_⟩
  · show _ = ((s.metadata.set key md).get key').map Value.dict
    rw [Dict.get_set, Function.update_apply]
    split
    · rfl
    · exact hs.same key' hkey'
  · change (s.metadata.set key md).get key' ≠ none at hkey'
    rw [Dict.get_set] at hkey'
    split at hkey'
    · rename_i heq
      rw [heq]
      exact hmd.1
    · exact hs.keyed key' hkey'

theorem mirror_insert {s : MetadataStorage F} (hs : Mirror env s) {key : String} {md : Metadata F}
    (hmd : s.Writable env key md) : Mirror env (s.insert env key md) := by
  obtain ⟨f, hf⟩ := hs.agrees
  refine ⟨⟨_, agrees_insert hf hmd.2⟩, fun key' hkey' => ?_⟩
  obtain ⟨hnone, hne⟩ := hs.popped key' hkey'
  refine ⟨?_, hne⟩
  show (s.metadata.set key md).get key' = none
  rw [Dict.get_set, if_neg, hnone]
  rintro rfl
  exact hmd.1 hkey'

/-- A record goes from the dictionary now and from the database later. -/
theorem mirror_popLater {s : MetadataStorage F} (hs : Mirror env s) {key : String}
    (hkey : s.metadata.get key ≠ none) :
    Mirror env ({ s with metadata := s.metadata.erase key }.popLater key) := by
  obtain ⟨f, hholds, hsame, hkeyed⟩ := hs.agrees
  have herase (key' : String) :
      (s.metadata.erase key).get key' ≠ none → s.metadata.get key' ≠ none := by
    rw [Dict.get_erase]
    split
    · exact fun h => absurd rfl h
    · exact id
  refine ⟨⟨f, hholds, fun key' hkey' => ?_, fun key' hkey' => hkeyed key' (herase key' hkey')⟩, ?_⟩
  · obtain ⟨hpops, hne⟩ := not_or.mp (mt List.mem_append.mpr hkey')
    show f key' = ((s.metadata.erase key).get key').map Value.dict
    rw [Dict.get_erase, if_neg fun heq => hne (List.mem_singleton.mpr heq)]
    exact hsame key' hpops
  · intro key' hkey'
    show (s.metadata.erase key).get key' = none ∧ key' ≠ ""
    rw [Dict.get_erase]
    rcases List.mem_append.mp hkey' with hmem | hmem
    · obtain ⟨hnone, hne⟩ := hs.popped key' hmem
      rw [hnone, ite_self]
      exact ⟨rfl, hne⟩
    · rw [List.mem_singleton.mp hmem, if_pos rfl]
      exact ⟨rfl, hkeyed key hkey⟩

theorem mirror_startPop {s t : MetadataStorage F} (hs : Mirror env s)
    (hstep : s.startPop env = some t) : Mirror env t := by
  obtain ⟨f, hholds, hsame, hkeyed⟩ := hs.agrees
  rw [startPop] at hstep
  split at hstep
  · cases hstep
  · rename_i key pops hpops
    obtain ⟨hnone, hne⟩ := hs.popped key (hpops ▸ List.mem_cons_self)
    rw [← Option.some.inj hstep]
    refine ⟨⟨_, holds_pop hholds hne, fun key' hkey' => ?_, hkeyed⟩, fun key' hkey' =>
      hs.popped key' (hpops ▸ List.mem_cons_of_mem _ hkey')⟩
    show Function.update f key none key' = (s.metadata.get key').map Value.dict
    rw [Function.update_apply]
    split
    · rename_i heq
      rw [heq, hnone]
      rfl
    · rename_i hother
      refine hsame key' ?_
      rw [hpops]
      exact List.not_mem_cons_of_ne_of_not_mem hother hkey'

/-! ## Directories that are removed -/

/-- The files of a directory. -/
def filesBelow (dirName : Text) (names : List String) : List String :=
  names.filter fun fname => dirName.isPrefixOf fname.toList

/-- The loop takes out the files of the directory, and lists them where no record is empty. -/
theorem foldl_removeOne (dirName : Text) {names : List String} (hnodup : names.Nodup)
    (acc : Dict String (Metadata F) × List String)
    (hrecords : ∀ fname ∈ filesBelow dirName names,
      ∃ item items, acc.1.get fname = some (item :: items)) :
    (names.foldl (removeOne dirName) acc).2 = acc.2 ++ filesBelow dirName names ∧
    ∀ key, (names.foldl (removeOne dirName) acc).1.get key =
      if key ∈ filesBelow dirName names then none else acc.1.get key := by
  induction names generalizing acc with
  | nil => exact ⟨(List.append_nil _).symm, fun key => (if_neg List.not_mem_nil).symm⟩
  | cons fname names ih =>
    obtain ⟨hfname, hnodup⟩ := List.nodup_cons.mp hnodup
    rw [List.foldl_cons]
    by_cases hbelow : dirName.isPrefixOf fname.toList = true
    · have hfiles : filesBelow dirName (fname :: names) = fname :: filesBelow dirName names :=
        List.filter_cons_of_pos hbelow
      rw [hfiles] at hrecords ⊢
      obtain ⟨⟨item, items, hget⟩, hrest⟩ := List.forall_mem_cons.mp hrecords
      have hone : removeOne dirName acc fname = (acc.1.erase fname, acc.2 ++ [fname]) := by
        rw [removeOne, if_pos hbelow, hget]
      rw [hone]
      have hother : ∀ key ∈ filesBelow dirName names, key ≠ fname :=
        fun key hkey heq => hfname (heq ▸ List.mem_of_mem_filter hkey)
      obtain ⟨hlist, hkeys⟩ := ih hnodup (acc.1.erase fname, acc.2 ++ [fname])
        fun key hkey => by
          obtain ⟨item, items, hget⟩ := hrest key hkey
          exact ⟨item, items, by rw [Dict.get_erase, if_neg (hother key hkey), hget]⟩
      refine ⟨hlist.trans (List.append_assoc _ _ _), fun key => (hkeys key).trans ?_⟩
      rw [Dict.get_erase]
      by_cases hkey : key = fname
      · rw [if_pos hkey, ite_self, if_pos (List.mem_cons.mpr (Or.inl hkey))]
      · rw [if_neg hkey]
        exact if_congr (by rw [List.mem_cons, or_iff_right hkey]) rfl rfl
    · have hfiles : filesBelow dirName (fname :: names) = filesBelow dirName names :=
        List.filter_cons_of_neg hbelow
      rw [removeOne, if_neg hbelow, hfiles]
      exact ih hnodup acc (hfiles ▸ hrecords)

theorem mirror_deleteBatch {s : MetadataStorage F} {keys : List String}
    (hs : ∃ f, Agrees env s (fun key => key ∈ s.pops ∨ key ∈ keys) f)
    (hpopped : ∀ key ∈ s.pops, s.metadata.get key = none ∧ key ≠ "")
    (hkeys : ∀ key ∈ keys, s.metadata.get key = none) :
    Mirror env (if keys = [] then s else s.issue env (.deleteBatch keys)) := by
  obtain ⟨f, hholds, hsame, hkeyed⟩ := hs
  split
  · rename_i hnil
    refine ⟨⟨f, hholds, fun key hkey => hsame key ?_, hkeyed⟩, hpopped⟩
    rw [hnil]
    exact not_or.mpr ⟨hkey, List.not_mem_nil⟩
  · refine ⟨⟨_, holds_deleteBatch env.lmdb hholds keys, fun key hkey => ?_, hkeyed⟩, hpopped⟩
    show (if key ∈ keys then none else f key) = (s.metadata.get key).map Value.dict
    split
    · rename_i hmem
      rw [hkeys key hmem]
      rfl
    · rename_i hmem
      exact hsame key (not_or.mpr ⟨hkey, hmem⟩)

theorem mirror_removeDirectory {s : MetadataStorage F} (hs : Mirror env s) {dirName : Text}
    (hrecords : ∀ dir, slashed dirName = some dir → ∀ fname ∈ s.metadata.keys,
      dir.isPrefixOf fname.toList = true → s.metadata.get fname ≠ some []) :
    Mirror env (s.removeDirectoryMetadata env dirName) := by
  rw [removeDirectoryMetadata]
  split
  · exact hs
  · rename_i dir hdir
    obtain ⟨hlist, hkeys⟩ := foldl_removeOne dir s.metadata.nodup (s.metadata, [])
      fun fname hfname => by
        obtain ⟨hmem, hbelow⟩ := List.mem_filter.mp hfname
        obtain ⟨md, hmd⟩ := Dict.mem_keys_iff.mp hmem
        cases md with
        | nil => exact absurd hmd (hrecords dir hdir fname hmem hbelow)
        | cons item items => exact ⟨item, items, hmd⟩
    obtain ⟨f, hholds, hsame, hkeyed⟩ := hs.agrees
    generalize hloop : s.metadata.keys.foldl (removeOne dir) (s.metadata, []) = loop
    have hloop' : (s.metadata.items.map Prod.fst).foldl (removeOne dir) (s.metadata, []) = loop :=
      hloop
    rw [hloop', List.nil_append] at hlist
    rw [hloop'] at hkeys
    have hsub (key : String) (h : loop.1.get key ≠ none) : s.metadata.get key ≠ none := by
      rw [hkeys] at h
      split at h
      · exact absurd rfl h
      · exact h
    show Mirror env (if loop.2 = [] then { s with metadata := loop.1 } else
      { s with metadata := loop.1 }.issue env (.deleteBatch loop.2))
    refine mirror_deleteBatch (s := { s with metadata := loop.1 }) ⟨f, hholds, ?_, ?_⟩ ?_ ?_
    · intro key hkey
      obtain ⟨hpops, hlisted⟩ := not_or.mp hkey
      rw [hlist] at hlisted
      show f key = (loop.1.get key).map Value.dict
      rw [hkeys, if_neg hlisted]
      exact hsame key hpops
    · exact fun key hkey => hkeyed key (hsub key hkey)
    · intro key hkey
      obtain ⟨hnone, hne⟩ := hs.popped key hkey
      refine ⟨?_, hne⟩
      by_contra h
      exact hsub key h hnone
    · intro key hkey
      rw [hlist] at hkey
      show loop.1.get key = none
      rw [hkeys]
      exact if_pos hkey

/-! ## Moves -/

/-- The moves of the files of a directory. -/
def movedPairs (prevDir newDir : Text) (names : List String) : List (String × String) :=
  (filesBelow prevDir names).map fun fname => (fname, movedName prevDir newDir fname)

/-- The loop moves the files of the directory, in their order, and lists the moves. -/
theorem foldl_moveOne (prevDir newDir : Text) {names : List String} (hnodup : names.Nodup)
    (acc : Dict String (Metadata F) × List (String × String))
    (hrecords : ∀ fname ∈ filesBelow prevDir names, acc.1.get fname ≠ none) :
    (names.foldl (moveOne prevDir newDir) acc).2 = acc.2 ++ movedPairs prevDir newDir names ∧
    ∀ key, (names.foldl (moveOne prevDir newDir) acc).1.get key =
      moveEntries (fun key => acc.1.get key) (movedPairs prevDir newDir names) key := by
  induction names generalizing acc with
  | nil => exact ⟨(List.append_nil _).symm, fun key => rfl⟩
  | cons fname names ih =>
    obtain ⟨hfname, hnodup⟩ := List.nodup_cons.mp hnodup
    rw [List.foldl_cons]
    by_cases hbelow : prevDir.isPrefixOf fname.toList = true
    · have hfiles : filesBelow prevDir (fname :: names) = fname :: filesBelow prevDir names :=
        List.filter_cons_of_pos hbelow
      have hpairs : movedPairs prevDir newDir (fname :: names) =
          (fname, movedName prevDir newDir fname) :: movedPairs prevDir newDir names := by
        rw [movedPairs, hfiles]
        rfl
      rw [hfiles] at hrecords
      rw [hpairs]
      obtain ⟨hget, hrest⟩ := List.forall_mem_cons.mp hrecords
      obtain ⟨md, hmd⟩ := Option.ne_none_iff_exists'.mp hget
      have hone : moveOne prevDir newDir acc fname =
          ((acc.1.erase fname).set (movedName prevDir newDir fname) md,
            acc.2 ++ [(fname, movedName prevDir newDir fname)]) := by
        rw [moveOne, if_pos hbelow, hmd]
      rw [hone]
      have hentry (key : String) : ((acc.1.erase fname).set (movedName prevDir newDir fname) md).get
          key = moveEntry (fun key => acc.1.get key) (fname, movedName prevDir newDir fname) key := by
        rw [Dict.get_set, Dict.get_erase, moveEntry, hmd]
      obtain ⟨hlist, hkeys⟩ := ih hnodup ((acc.1.erase fname).set
        (movedName prevDir newDir fname) md, acc.2 ++ [(fname, movedName prevDir newDir fname)])
        fun key hkey => by
          rw [Dict.get_set]
          split
          · exact Option.some_ne_none md
          · have hne : key ≠ fname := fun heq => hfname (heq ▸ List.mem_of_mem_filter hkey)
            rw [Dict.get_erase, if_neg hne]
            exact hrest key hkey
      refine ⟨hlist.trans (List.append_assoc _ _ _), fun key => (hkeys key).trans ?_⟩
      rw [moveEntries, moveEntries, List.foldl_cons, funext hentry]
    · have hfiles : filesBelow prevDir (fname :: names) = filesBelow prevDir names :=
        List.filter_cons_of_neg hbelow
      rw [moveOne, if_neg hbelow, movedPairs, hfiles]
      exact ih hnodup acc (hfiles ▸ hrecords)

/-- Moves to where the database takes the records, no later move begins or goes, and no task
deletes. -/
structure Carried (env : StorageEnv F) (s : MetadataStorage F) (pairs : List (String × String)) :
    Prop where
  takes : ∀ p ∈ pairs, ∀ bytes, s.db.get₂ metadataDb p.1 = some bytes →
    env.lmdb.takes p.2 bytes = true
  separate : pairs.Pairwise Separate
  kept : ∀ p ∈ pairs, p.2 ∉ s.pops ∧ p.2 ≠ ""

theorem mirror_moves {s : MetadataStorage F} {metadata : Dict String (Metadata F)}
    {pairs : List (String × String)} (hs : Mirror env s) (hpairs : Carried env s pairs)
    (hnodup : (pairs.map Prod.fst).Nodup)
    (hget : ∀ key, metadata.get key = moveEntries (fun key => s.metadata.get key) pairs key)
    (hfrom : ∀ p ∈ pairs, s.metadata.get p.1 ≠ none) :
    Mirror env ({ s with metadata := metadata }.issue env
      (.moveBatch (pairs.map Prod.fst) (pairs.map Prod.snd))) := by
  obtain ⟨f, hholds, hsame, hkeyed⟩ := hs.agrees
  have hpopped : ∀ p ∈ pairs, p.1 ∉ s.pops := fun p hp hmem =>
    hfrom p hp (hs.popped p.1 hmem).1
  have hmovable : Movable env.lmdb metadataDb s.db pairs :=
    ⟨hpairs.takes, hpairs.separate, hnodup⟩
  refine ⟨⟨_, holds_moveBatch hholds hmovable, fun key hkey => ?_, fun key hkey => ?_⟩,
    fun key hkey => ?_⟩
  · show moveEntries f pairs key = (metadata.get key).map Value.dict
    rw [hget, moveEntries_congr (S := (· ∉ s.pops)) hsame
      (fun p hp => ⟨hpopped p hp, (hpairs.kept p hp).1⟩) key hkey, moveEntries_map]
  · change metadata.get key ≠ none at hkey
    rw [hget] at hkey
    rcases moveEntries_ne_none hkey with hold | ⟨p, hp, rfl⟩
    · exact hkeyed key hold
    · exact (hpairs.kept p hp).2
  · obtain ⟨hnone, hne⟩ := hs.popped key hkey
    refine ⟨?_, hne⟩
    show metadata.get key = none
    rw [hget, moveEntries_of_ne, hnone]
    intro p hp
    refine ⟨?_, ?_⟩
    · rintro rfl
      exact hpopped p hp hkey
    · rintro rfl
      exact (hpairs.kept p hp).1 hkey

theorem mirror_moveFile {s : MetadataStorage F} (hs : Mirror env s) {prevFname newFname : String}
    (hmove : s.metadata.get prevFname ≠ none → Carried env s [(prevFname, newFname)]) :
    Mirror env (s.moveFileMetadata env prevFname newFname) := by
  rw [moveFileMetadata]
  split
  · split
    · exact hs
    · rename_i hget
      exact mirror_popLater hs (by rw [hget]; exact Option.some_ne_none _)
  · rename_i md hmd
    have hsome : s.metadata.get prevFname ≠ none := by
      rw [hmd]
      exact Option.some_ne_none md
    refine mirror_moves hs (hmove hsome) (List.nodup_singleton _) (fun key => ?_) fun p hp => ?_
    · rw [Dict.get_set, Dict.get_erase, moveEntries, List.foldl_cons, List.foldl_nil, moveEntry,
        hmd]
    · rw [List.mem_singleton.mp hp]
      exact hsome

theorem moveLoop_spec (s : MetadataStorage F) (prevDir newDir : Text) :
    (s.metadata.keys.foldl (moveOne prevDir newDir) (s.metadata, [])).2 =
      movedPairs prevDir newDir s.metadata.keys ∧
    ∀ key, (s.metadata.keys.foldl (moveOne prevDir newDir) (s.metadata, [])).1.get key =
      moveEntries (fun key => s.metadata.get key) (movedPairs prevDir newDir s.metadata.keys) key :=
  foldl_moveOne prevDir newDir s.metadata.nodup (s.metadata, []) fun fname hfname => by
    obtain ⟨md, hmd⟩ := Dict.mem_keys_iff.mp (List.mem_of_mem_filter hfname)
    rw [hmd]
    exact Option.some_ne_none md

theorem metadata_moveDirectory (s : MetadataStorage F) {prevDir dir : Text}
    (hdir : slashed prevDir = some dir) (newDir : Text) :
    (s.moveDirectoryMetadata env prevDir newDir).metadata =
      (s.metadata.keys.foldl (moveOne dir newDir) (s.metadata, [])).1 := by
  rw [moveDirectoryMetadata, hdir]
  dsimp only
  split <;> rfl

theorem nodup_movedPairs (prevDir newDir : Text) {names : List String} (h : names.Nodup) :
    ((movedPairs prevDir newDir names).map Prod.fst).Nodup := by
  rw [movedPairs, List.map_map]
  exact (List.map_id _).symm ▸ h.filter _

theorem mirror_moveDirectory {s : MetadataStorage F} (hs : Mirror env s) {prevDir newDir : Text}
    (hmove : ∀ dir, slashed prevDir = some dir →
      Carried env s (movedPairs dir newDir s.metadata.keys)) :
    Mirror env (s.moveDirectoryMetadata env prevDir newDir) := by
  rw [moveDirectoryMetadata]
  split
  · exact hs
  · rename_i dir hdir
    obtain ⟨hlist, hkeys⟩ := s.moveLoop_spec dir newDir
    generalize s.metadata.keys.foldl (moveOne dir newDir) (s.metadata, []) = loop at hlist hkeys ⊢
    show Mirror env (if loop.2 = [] then { s with metadata := loop.1 } else
      { s with metadata := loop.1 }.issue env
        (.moveBatch (loop.2.map Prod.fst) (loop.2.map Prod.snd)))
    rw [hlist]
    split
    · rename_i hnil
      refine hs.congr (fun key => ?_) rfl rfl
      show loop.1.get key = s.metadata.get key
      rw [hkeys, hnil]
      rfl
    · refine mirror_moves hs (hmove dir hdir) (nodup_movedPairs dir newDir s.metadata.nodup) hkeys
        fun p hp => ?_
      obtain ⟨fname, hfname, rfl⟩ := List.mem_map.mp hp
      obtain ⟨md, hmd⟩ := Dict.mem_keys_iff.mp (List.mem_of_mem_filter hfname)
      rw [hmd]
      exact Option.some_ne_none md

/-! ## Pruning -/

/-- A file is taken out, or its record is stored again. -/
theorem pruneFile_spec {s : MetadataStorage F} {hidden : String → Prop}
    {f : String → Option (Value F)} (hs : Agrees env s hidden f) (isfile : Text → Bool)
    {fname : String}
    (hhidden : isfile (join env.gcPath fname.toList) = false → hidden fname)
    (hwritten : isfile (join env.gcPath fname.toList) = true → ∀ md md',
      s.metadata.get fname = some md → pruneThumbs md = some md' →
        Storable env.codec env.lmdb fname (.dict md')) :
    (∃ f', Agrees env (pruneFile env isfile s fname) hidden f') ∧
    (pruneFile env isfile s fname).pops = s.pops ∧
    (∀ key, key ≠ fname →
      (pruneFile env isfile s fname).metadata.get key = s.metadata.get key) ∧
    ((pruneFile env isfile s fname).metadata.get fname ≠ none → s.metadata.get fname ≠ none) ∧
    (isfile (join env.gcPath fname.toList) = false →
      (pruneFile env isfile s fname).metadata.get fname = none) := by
  rw [pruneFile]
  split
  · rename_i hfile
    have hnot (h : isfile (join env.gcPath fname.toList) = false) {p : Prop} : p :=
      absurd (hfile.symm.trans h) Bool.noConfusion
    split
    · exact ⟨⟨f, hs⟩, rfl, fun _ _ => rfl, id, fun h => hnot h⟩
    · rename_i md' hmd'
      obtain ⟨md, hmd, hprune⟩ := Option.bind_eq_some_iff.mp hmd'
      refine ⟨⟨_, agrees_insert hs (hwritten hfile md md' hmd hprune)⟩, rfl, fun key hkey => ?_,
        fun _ => ?_, fun h => hnot h⟩
      · show (s.metadata.set fname md').get key = s.metadata.get key
        rw [Dict.get_set, if_neg hkey]
      · rw [hmd]
        exact Option.some_ne_none md
  · rename_i hfile
    have hgone := hhidden (Bool.eq_false_iff.mpr hfile)
    obtain ⟨hholds, hsame, hkeyed⟩ := hs
    have herase (key : String) (hkey : key ≠ fname) :
        (s.metadata.erase fname).get key = s.metadata.get key := by
      rw [Dict.get_erase, if_neg hkey]
    have hnone : (s.metadata.erase fname).get fname = none := by
      rw [Dict.get_erase, if_pos rfl]
    refine ⟨⟨f, hholds, fun key hkey => ?_, fun key hkey => hkeyed key fun h => hkey ?_⟩, rfl, herase,
      fun h => absurd hnone h, fun _ => hnone⟩
    · show f key = ((s.metadata.erase fname).get key).map Value.dict
      rw [herase key fun heq => hkey (heq ▸ hgone)]
      exact hsame key hkey
    · show (s.metadata.erase fname).get key = none
      rw [Dict.get_erase, h, ite_self]

theorem foldl_pruneFile (isfile : Text → Bool) {hidden : String → Prop} {names : List String}
    (hnodup : names.Nodup) {s : MetadataStorage F} {f : String → Option (Value F)}
    (hs : Agrees env s hidden f)
    (hhidden : ∀ fname ∈ names, isfile (join env.gcPath fname.toList) = false → hidden fname)
    (hwritten : ∀ fname ∈ names, isfile (join env.gcPath fname.toList) = true → ∀ md md',
      s.metadata.get fname = some md → pruneThumbs md = some md' →
        Storable env.codec env.lmdb fname (.dict md')) :
    (∃ f', Agrees env (names.foldl (pruneFile env isfile) s) hidden f') ∧
    (names.foldl (pruneFile env isfile) s).pops = s.pops ∧
    (∀ key, (names.foldl (pruneFile env isfile) s).metadata.get key ≠ none →
      s.metadata.get key ≠ none) ∧
    ∀ fname ∈ names, isfile (join env.gcPath fname.toList) = false →
      (names.foldl (pruneFile env isfile) s).metadata.get fname = none := by
  induction names generalizing s f with
  | nil => exact ⟨⟨f, hs⟩, rfl, fun _ => id, fun _ h => absurd h List.not_mem_nil⟩
  | cons fname names ih =>
    obtain ⟨hfname, hnodup⟩ := List.nodup_cons.mp hnodup
    obtain ⟨hhead, hhidden⟩ := List.forall_mem_cons.mp hhidden
    obtain ⟨hwrite, hwritten⟩ := List.forall_mem_cons.mp hwritten
    obtain ⟨⟨f₁, hs₁⟩, hpops₁, hother, hself, hgone⟩ := pruneFile_spec hs isfile hhead hwrite
    obtain ⟨hagrees, hpops₂, hkept, hremoved⟩ := ih hnodup hs₁ hhidden
      fun fname' hmem hfile md md' hmd => by
        rw [hother fname' fun heq => hfname (heq ▸ hmem)] at hmd
        exact hwritten fname' hmem hfile md md' hmd
    have hback (key : String) (h : (pruneFile env isfile s fname).metadata.get key ≠ none) :
        s.metadata.get key ≠ none := by
      by_cases hkey : key = fname
      · rw [hkey] at h ⊢
        exact hself h
      · rwa [hother key hkey] at h
    rw [List.foldl_cons]
    refine ⟨hagrees, hpops₂.trans hpops₁, fun key h => hback key (hkept key h),
      fun fname' hmem hfile => ?_⟩
    rcases List.mem_cons.mp hmem with rfl | hmem
    · by_contra h
      exact hkept _ h (hgone hfile)
    · exact hremoved fname' hmem hfile

theorem mirror_prune {s : MetadataStorage F} (hs : Mirror env s) {isfile : Text → Bool}
    (hwritten : ∀ fname md md', isfile (join env.gcPath fname.toList) = true →
      s.metadata.get fname = some md → pruneThumbs md = some md' →
        Storable env.codec env.lmdb fname (.dict md')) :
    Mirror env (s.pruneStorage env isfile) := by
  rw [pruneStorage]
  split
  · exact hs
  · obtain ⟨f, hholds, hsame, hkeyed⟩ := hs.agrees
    let delKeys := s.metadata.keys.filter fun fname => !isfile (join env.gcPath fname.toList)
    have hagrees : Agrees env s (fun key => key ∈ s.pops ∨ key ∈ delKeys) f :=
      ⟨hholds, fun key hkey => hsame key fun h => hkey (Or.inl h), hkeyed⟩
    obtain ⟨hfinal, hpops, hkept, hremoved⟩ := foldl_pruneFile isfile s.metadata.nodup hagrees
      (fun fname hmem hfile => Or.inr (List.mem_filter.mpr ⟨hmem, by rw [hfile]; rfl⟩))
      fun fname hmem hfile md md' => hwritten fname md md' hfile
    refine mirror_deleteBatch ?_ ?_ ?_
    · rw [← hpops] at hfinal
      exact hfinal
    · intro key hkey
      have hmem : key ∈ s.pops := hpops ▸ hkey
      obtain ⟨hnone, hne⟩ := hs.popped key hmem
      refine ⟨?_, hne⟩
      by_contra h
      exact hkept key h hnone
    · intro key hkey
      obtain ⟨hmem, hfile⟩ := List.mem_filter.mp hkey
      exact hremoved key hmem (Bool.not_eq_true' _ ▸ hfile)

/-! ## Runs -/

theorem nextRequest_eq {s t : MetadataStorage F} (h : s.nextRequest env = some t) :
    t.metadata = s.metadata ∧ t.db = s.db ∧ t.pops = s.pops := by
  rw [nextRequest] at h
  split at h
  · rw [← Option.some.inj h]
    exact ⟨rfl, rfl, rfl⟩
  · split at h
    · rw [← Option.some.inj h]
      exact ⟨rfl, rfl, rfl⟩
    · cases h
    · rw [← Option.some.inj h]
      exact ⟨rfl, rfl, rfl⟩

theorem parseMetadata_eq (s : MetadataStorage F) (fname : String) (info : PathInfo F) :
    (s.parseMetadata env fname info).metadata = s.metadata ∧
      (s.parseMetadata env fname info).db = s.db ∧
      (s.parseMetadata env fname info).pops = s.pops := by
  rw [parseMetadata]
  split
  · exact ⟨rfl, rfl, rfl⟩
  · split
    · exact ⟨rfl, rfl, rfl⟩
    · split
      · exact ⟨rfl, rfl, rfl⟩
      · exact ⟨rfl, rfl, rfl⟩
      · dsimp only
        split <;> exact ⟨rfl, rfl, rfl⟩

/-- The condition of a step: what it writes is stored, and not under a key that a task is to
delete; a directory that is removed has no empty records; and the files that are moved do not
go to the names of others. -/
def Condition (env : StorageEnv F) (s : MetadataStorage F) : Event F → Prop
  | .extracted result => ∀ fname info, s.update = .extracting fname info →
      ∀ key md, extractedRecord fname info result = some (key, md) → s.Writable env key md
  | .insert key value => s.Writable env key value
  | .removeDirectory dirName => ∀ dir, slashed dirName = some dir → ∀ fname ∈ s.metadata.keys,
      dir.isPrefixOf fname.toList = true → s.metadata.get fname ≠ some []
  | .moveFile prevFname newFname =>
      s.metadata.get prevFname ≠ none → Carried env s [(prevFname, newFname)]
  | .moveDirectory prevDir newDir => ∀ dir, slashed prevDir = some dir →
      Carried env s (movedPairs dir newDir s.metadata.keys)
  | .prune isfile => ∀ fname md md', isfile (join env.gcPath fname.toList) = true →
      s.metadata.get fname = some md → pruneThumbs md = some md' →
        Storable env.codec env.lmdb fname (.dict md')
  | .parseMetadata _ _ | .processUpdate | .removeFile _ | .startPop => True

theorem mirror_step {s t : MetadataStorage F} (hs : Mirror env s) {e : Event F}
    (hstep : s.step env e = some t) (hcond : s.Condition env e) : Mirror env t := by
  cases e with
  | parseMetadata fname info =>
    rw [← Option.some.inj hstep]
    obtain ⟨hmetadata, hdb, hpops⟩ := s.parseMetadata_eq fname info
    exact hs.congr (fun key => by rw [hmetadata]) hdb hpops
  | processUpdate =>
    rw [step] at hstep
    split at hstep
    · obtain ⟨hmetadata, hdb, hpops⟩ := nextRequest_eq hstep
      exact hs.congr (fun key => by rw [hmetadata]) hdb hpops
    all_goals cases hstep
  | extracted result =>
    rw [step, finishExtraction] at hstep
    split at hstep
    · rename_i fname info hupdate
      cases hrecord : extractedRecord fname info result with
      | none =>
        rw [hrecord] at hstep
        obtain ⟨hmetadata, hdb, hpops⟩ := nextRequest_eq hstep
        exact hs.congr (fun key => congrArg (Dict.get key) hmetadata) hdb hpops
      | some record =>
        obtain ⟨key, md⟩ := record
        rw [hrecord] at hstep
        obtain ⟨hmetadata, hdb, hpops⟩ := nextRequest_eq hstep
        refine (mirror_insert hs (hcond fname info hupdate key md hrecord)).congr
          (fun key => ?_) hdb hpops
        exact congrArg (Dict.get key) hmetadata
    all_goals cases hstep
  | insert key value =>
    rw [← Option.some.inj hstep]
    exact mirror_insert hs hcond
  | removeFile fname =>
    rw [← Option.some.inj hstep, removeFileMetadata]
    split
    · exact hs
    · rename_i hget
      exact mirror_popLater hs (by rw [hget]; exact Option.some_ne_none _)
  | removeDirectory dirName =>
    rw [← Option.some.inj hstep]
    exact mirror_removeDirectory hs hcond
  | moveFile prevFname newFname =>
    rw [← Option.some.inj hstep]
    exact mirror_moveFile hs hcond
  | moveDirectory prevDir newDir =>
    rw [← Option.some.inj hstep]
    exact mirror_moveDirectory hs hcond
  | prune isfile =>
    rw [← Option.some.inj hstep]
    exact mirror_prune hs hcond
  | startPop => exact mirror_startPop hs hstep

theorem carries_step {s t : MetadataStorage F} {e : Event F} (hstep : s.step env e = some t)
    (hcond : s.Condition env e) : Carries s t e := by
  cases e with
  | moveFile prevFname newFname =>
    intro md hmd
    rw [← Option.some.inj hstep, moveFileMetadata, hmd]
    show ((s.metadata.erase prevFname).set newFname md).get newFname = some md
    rw [Dict.get_set, if_pos rfl]
  | moveDirectory prevDir newDir =>
    intro dir hdir fname md hbelow hmd
    have hfname : fname ∈ filesBelow dir s.metadata.keys :=
      List.mem_filter.mpr ⟨Dict.mem_keys_iff.mpr ⟨md, hmd⟩, hbelow⟩
    have hcarried := moveEntries_of_separate (nodup_movedPairs dir newDir s.metadata.nodup)
      (hcond dir hdir).separate (f := fun key => s.metadata.get key)
      (List.mem_map_of_mem (f := fun fname => (fname, movedName dir newDir fname)) hfname) hmd
    rw [← Option.some.inj hstep, metadata_moveDirectory s hdir, (s.moveLoop_spec dir newDir).2]
    exact hcarried
  | parseMetadata _ _ | processUpdate | extracted _ | insert _ _ | removeFile _
  | removeDirectory _ | prune _ | startPop => trivial

/-- A start of the server: nothing is to be scanned or deleted, and the dictionary is what
`as_dict` returned. -/
structure Started (env : StorageEnv F) (s : MetadataStorage F) : Prop where
  idle : s.update = .idle ∧ s.pendingRequests = .empty ∧ s.pops = []
  loaded : ∃ d, s.db.asDict env.codec metadataDb = some d ∧
    ∀ key, d.get key = (s.metadata.get key).map .dict
  keyed : ∀ key, s.metadata.get key ≠ none → key ≠ ""

theorem Started.mirror {s : MetadataStorage F} (hs : Started env s) : Mirror env s := by
  obtain ⟨d, hd, hget⟩ := hs.loaded
  refine ⟨⟨d.get, holds_of_asDict hd, fun key _ => hget key, hs.keyed⟩, fun key hkey => ?_⟩
  rw [hs.idle.2.2] at hkey
  cases hkey

/-- **The namespace mirrors the dictionary** whenever no operation is left, and moves carry the
records of all their files, in every run whose steps meet the condition. -/
theorem mirrored_of_condition {s t : MetadataStorage F} (hs : Started env s)
    {es : List (Event F)}
    (h : Run (fun s e t => s.step env e = some t ∧ s.Condition env e) s es t) :
    Run (fun s e t => s.step env e = some t ∧ Mirrored env t ∧ Carries s t e) s es t := by
  have hsteps := h.forall_steps (P := fun s e t => Mirrored env t ∧ Carries s t e) hs.mirror
    (fun s e t hs hstep => mirror_step hs hstep.1 hstep.2)
    fun s e t hs hstep =>
      ⟨(mirror_step hs hstep.1 hstep.2).mirrored, carries_step hstep.1 hstep.2⟩
  exact hsteps.mono fun s e t hstep => ⟨hstep.1.1, hstep.2⟩

/-! ## A file over one that was removed -/

/-- The size of a record that has nothing else. -/
def recordSize : Value Unit → Option ℤ
  | .dict [(key, .int n)] => if key = "size" then some n else none
  | _ => none

/-- The texts of two records. -/
def sizeTexts : List (ℤ × List UInt8) :=
  [(1, encodeUtf8 "\x7b\"size\":1\x7d".toList), (2, encodeUtf8 "\x7b\"size\":2\x7d".toList)]

theorem eq_of_recordSize {v : Value Unit} {n : ℤ} (h : recordSize v = some n) :
    v = .dict [("size", .int n)] := by
  rw [recordSize.eq_def] at h
  split at h
  · split at h
    · rename_i hkey
      rw [hkey, Option.some.inj h]
    · cases h
  · cases h

/-- What JSON makes of these records. -/
def sizeCodec : RecordCodec Unit where
  packDouble _ := [0, 0, 0, 0, 0, 0, 0, 0]
  unpackDouble _ := ()
  unpack_pack _ := rfl
  dumps v := (recordSize v).bind (List.lookup · sizeTexts)
  loads bytes := (sizeTexts.find? fun e => e.2 = bytes).map fun e => .dict [("size", .int e.1)]
  loads_dumps v bytes h := by
    obtain ⟨n, hn, hlookup⟩ := Option.bind_eq_some_iff.mp h
    have hfind : ∀ e ∈ sizeTexts, sizeTexts.find? (fun e' => e'.2 = e.2) = some e := by decide
    obtain ⟨l₁, l₂, htexts, -⟩ := List.lookup_eq_some_iff.mp hlookup
    have hmem : (n, bytes) ∈ sizeTexts := htexts ▸ List.mem_append_right _ List.mem_cons_self
    rw [hfind _ hmem, eq_of_recordSize hn]
    rfl
  loads_ne_null bytes _ h := by
    obtain ⟨e, -, he⟩ := Option.map_eq_some_iff.mp h
    cases he
  dumps_list items bytes h := by
    obtain ⟨n, hn, -⟩ := Option.bind_eq_some_iff.mp h
    cases eq_of_recordSize hn
  dumps_dict items bytes h := by
    obtain ⟨n, -, hlookup⟩ := Option.bind_eq_some_iff.mp h
    have hhead : ∀ e ∈ sizeTexts, e.2.head? = some 123 := by decide
    obtain ⟨l₁, l₂, htexts, -⟩ := List.lookup_eq_some_iff.mp hlookup
    exact hhead (n, bytes) (htexts ▸ List.mem_append_right _ List.mem_cons_self)

/-- Every key is taken, and two values are the same that are the same number. -/
def sizeEnv : StorageEnv Unit where
  codec := sizeCodec
  lmdb := ⟨fun _ => true, fun _ _ => true⟩
  sameValue
    | .int n, .int n' => n = n'
    | _, _ => false
  gcPath := "/home/pi/gcodes".toList

/-- A start without records. -/
def emptyStorage : MetadataStorage Unit :=
  { metadata := .empty, pendingRequests := .empty, update := .idle
    db := .set metadataDb .empty .empty, pops := [] }

theorem started_emptyStorage : Started sizeEnv emptyStorage := by
  have hholds : Holds sizeCodec metadataDb emptyStorage.db fun _ => none := by
    refine ⟨⟨.empty, rfl⟩, fun key => ?_⟩
    rw [Table.get₂, show emptyStorage.db.get metadataDb = some .empty from rfl, Option.bind_some,
      Table.get_empty]
    rfl
  obtain ⟨d, hd, hget⟩ := hholds.asDict
  exact ⟨⟨rfl, rfl, rfl⟩, ⟨d, hd, hget⟩, fun key h => absurd rfl h⟩

/-- Two files, of which the first is removed and the second takes its name, before the task
has started that deletes the record of the first. -/
def replacedFile : List (Event Unit) :=
  [.insert "a.gcode" [("size", .int 1)], .insert "b.gcode" [("size", .int 2)],
    .removeFile "a.gcode", .moveFile "b.gcode" "a.gcode", .startPop]

theorem mirrored_of_insert : ∃ t : MetadataStorage Unit, t.metadata.keys = ["a.gcode"] ∧
    Run (fun s e t => s.step sizeEnv e = some t ∧ Mirrored sizeEnv t ∧ Carries s t e)
      emptyStorage [.insert "a.gcode" [("size", .int 1)]] t := by
  refine ⟨_, ?_, mirrored_of_condition started_emptyStorage (.single ⟨rfl, ?_⟩)⟩
  · rfl
  · exact ⟨List.not_mem_nil, by decide, _, rfl, rfl⟩

/-- The second file has a record in memory then, and none in the database. -/
theorem lost_after_replacement : ∃ t : MetadataStorage Unit,
    Run (fun s e t => s.step sizeEnv e = some t) emptyStorage replacedFile t ∧
    t.pops = [] ∧ ¬Mirrored sizeEnv t := by
  obtain ⟨t, hrun, ht⟩ := Run.exists_of_any (f := step sizeEnv) (s := emptyStorage)
    (l := replacedFile) (P := fun t => t.pops.isEmpty && (t.db.get₂ metadataDb "a.gcode").isNone &&
      (t.metadata.get "a.gcode").isSome) (by decide)
  obtain ⟨ht, hsome⟩ := Bool.and_eq_true_iff.mp ht
  obtain ⟨hpops, hnone⟩ := Bool.and_eq_true_iff.mp ht
  refine ⟨t, hrun, List.isEmpty_iff.mp hpops, fun h => ?_⟩
  obtain ⟨d, hd, hget⟩ := h (List.isEmpty_iff.mp hpops)
  have hlost := (holds_of_asDict hd).get₂_eq_none_iff.mp (Option.isNone_iff_eq_none.mp hnone)
  rw [hget, Option.map_eq_none_iff] at hlost
  rw [hlost] at hsome
  cases hsome

end MetadataStorage

end FlsunT1.Moonraker
