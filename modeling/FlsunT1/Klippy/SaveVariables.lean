/-
  Klippy/SaveVariables.lean --- saved variables and their writer thread
  (klippy/extras/save_variables.py).

  The file is the list of options of its section, as `configparser` gives them.
  Python's literals and `str.lower` are parameters.  The main thread and the writer
  interleave at each of their steps on the queue and on the file.
-/
import Mathlib.Data.List.Sort
import FlsunT1.Library.Dict
import FlsunT1.Library.Run

set_option autoImplicit false

namespace FlsunT1.Klippy

open Library

variable {V : Type}

/-! ## The text of the file -/

/-- Python's literals: `repr` of a value is read back by `ast.literal_eval`. -/
structure Literals (V : Type) where
  repr : V → String
  literalEval : String → Option V
  optionxform : String → String
  literalEval_repr : ∀ v, literalEval (repr v) = some v

/-- `.replace('%', "%%")` -/
def doublePercent (text : String) : String :=
  String.ofList (text.toList.flatMap fun c => if c = '%' then ['%', '%'] else [c])

/-- The interpolation of `configparser`, with no reference to other options. -/
def interpolateChars : List Char → Option (List Char)
  | [] => some []
  | '%' :: '%' :: cs => (interpolateChars cs).map ('%' :: ·)
  | '%' :: _ => none
  | c :: cs => (interpolateChars cs).map (c :: ·)

/-- The text of an option, after interpolation. -/
def interpolate (text : String) : Option String :=
  (interpolateChars text.toList).map String.ofList

/-- The section that `_save_vars_thread` builds of a snapshot. -/
def renderVariables (L : Literals V) (vars : Dict String V) : Dict String String :=
  Dict.empty.setAll <| (vars.items.insertionSort fun a b => a.1 ≤ b.1).map fun (name, val) =>
    (L.optionxform name, doublePercent (L.repr val))

/-- The value of an option of the file. -/
def readValue (L : Literals V) (text : String) : Option V :=
  (interpolate text).bind L.literalEval

/-- `loadVariables` -/
def loadVariables (L : Literals V) (varfile : Dict String String) : Option (Dict String V) :=
  varfile.items.foldlM
    (fun allvars (name, val) => (readValue L val).map fun v => allvars.set name v) Dict.empty

/-! ## The two threads -/

/-- Where the writer thread is in its loop. -/
inductive Writer (V : Type)
  /-- at the head of the loop -/
  | check
  /-- in `vars_queue.get` -/
  | get
  /-- in `safe_write`, before the temporary file is complete -/
  | write (vars : Dict String V)
  /-- in `safe_write`, with a complete temporary file -/
  | replace (vars : Dict String V) (temp : Dict String String)
  | stopped
  deriving DecidableEq

/-- `class SaveVariables`.  `newvars` is the dictionary of a call that has put it, or
found the queue full, and has not answered yet. -/
structure SaveVariables (V : Type) where
  allVariables : Dict String V
  varsQueue : List (Dict String V)
  threadStop : Bool
  thread : Writer V
  file : Dict String String
  newvars : Option (Dict String V)

/-- The events of the main thread, then those of the writer. -/
inductive SaveEvent (V : Type)
  /-- `SAVE_VARIABLE`, up to `put_nowait` -/
  | saveVariable (varname value : String)
  /-- `setVariables`, up to `put_nowait` -/
  | setVariables (vars : Dict String V)
  /-- the end of the call: "Variable Saved" -/
  | saved
  /-- `klippy:disconnect` -/
  | disconnect
  | check
  | get
  /-- `queue.Empty` -/
  | timeout
  | write
  | replace
  /-- `safe_write` raises an exception -/
  | fail

/-- `maxsize` of the queue. -/
def varsQueueSize : Nat := 100

namespace SaveVariables

/-- `__init__`, with the file that it finds. -/
def init (L : Literals V) (file : Dict String String) : Option (SaveVariables V) :=
  (loadVariables L file).map fun allVariables =>
    { allVariables := allVariables
      varsQueue := []
      threadStop := false
      thread := .check
      file := file
      newvars := none }

/-- `put_nowait`; a full queue is only logged. -/
def putNowait (newvars : Dict String V) (s : SaveVariables V) : SaveVariables V :=
  if s.varsQueue.length < varsQueueSize then
    { s with varsQueue := s.varsQueue ++ [newvars], newvars := some newvars }
  else { s with newvars := some newvars }

/-- What `cmd_SAVE_VARIABLE` makes of its parameters, if the value is a literal. -/
def saveVariable (L : Literals V) (varname value : String) (s : SaveVariables V) :
    Option (Dict String V) :=
  (L.literalEval value).map fun value => s.allVariables.set varname value

/-- One event.  A call with a value that is no literal fails and changes nothing. -/
def step (L : Literals V) (s : SaveVariables V) : SaveEvent V → Option (SaveVariables V)
  | .saveVariable varname value =>
      match s.newvars with
      | none =>
          match s.saveVariable L varname value with
          | none => some s
          | some newvars => some (s.putNowait newvars)
      | some _ => none
  | .setVariables vars =>
      match s.newvars with
      | none => some (s.putNowait (s.allVariables.update vars))
      | some _ => none
  | .saved => s.newvars.map fun newvars => { s with allVariables := newvars, newvars := none }
  | .disconnect =>
      match s.newvars with
      | none => some { s with threadStop := true }
      | some _ => none
  | .check =>
      match s.thread with
      | .check => some { s with thread := if s.threadStop then .stopped else .get }
      | _ => none
  | .get =>
      match s.thread, s.varsQueue with
      | .get, vars :: varsQueue => some { s with thread := .write vars, varsQueue := varsQueue }
      | _, _ => none
  | .timeout =>
      match s.thread, s.varsQueue with
      | .get, [] => some { s with thread := .check }
      | _, _ => none
  | .write =>
      match s.thread with
      | .write vars => some { s with thread := .replace vars (renderVariables L vars) }
      | _ => none
  | .replace =>
      match s.thread with
      | .replace _ temp => some { s with thread := .check, file := temp }
      | _ => none
  | .fail =>
      match s.thread with
      | .write _ => some { s with thread := .check }
      | .replace _ _ => some { s with thread := .check }
      | _ => none

end SaveVariables

/-! ## What is written is read back -/

theorem interpolateChars_doublePercent (cs : List Char) :
    interpolateChars (cs.flatMap fun c => if c = '%' then ['%', '%'] else [c]) = some cs := by
  induction cs with
  | nil => rfl
  | cons c cs ih =>
    rw [List.flatMap_cons]
    by_cases hc : c = '%'
    · rw [if_pos hc, List.cons_append, List.cons_append, List.nil_append, interpolateChars, ih, hc]
      rfl
    · rw [if_neg hc, List.singleton_append, interpolateChars, ih]
      · rfl
      · exact fun _ heq => absurd heq hc
      · exact hc

theorem readValue_repr (L : Literals V) (v : V) :
    readValue L (doublePercent (L.repr v)) = some v := by
  rw [readValue, interpolate, doublePercent, String.toList_ofList, interpolateChars_doublePercent,
    Option.map_some, String.ofList_toList, Option.bind_some, L.literalEval_repr]

theorem loadVariables_mapVals (L : Literals V) (d : Dict String V) :
    loadVariables L (d.mapVals fun v => doublePercent (L.repr v)) =
      some (Dict.empty.setAll d.items) := by
  have hloop (items : List (String × V)) (allvars : Dict String V) :
      (items.map fun kv => (kv.1, doublePercent (L.repr kv.2))).foldlM
        (fun allvars (name, val) => (readValue L val).map fun v => allvars.set name v) allvars =
      some (allvars.setAll items) := by
    induction items generalizing allvars with
    | nil => rfl
    | cons kv items ih =>
      rw [List.map_cons, List.foldlM_cons]
      show ((readValue L (doublePercent (L.repr kv.2))).map _).bind _ = _
      rw [readValue_repr]
      exact ih _
  exact hloop d.items Dict.empty

/-- All names are as `configparser` keeps them. -/
def LowerNames (L : Literals V) (vars : Dict String V) : Prop :=
  ∀ kv ∈ vars.items, L.optionxform kv.1 = kv.1

/-- The variables are what the file is read as. -/
def OnDisk (L : Literals V) (file : Dict String String) (vars : Dict String V) : Prop :=
  ∃ d, loadVariables L file = some d ∧ ∀ name, d.get name = vars.get name

theorem renderVariables_onDisk {L : Literals V} {vars : Dict String V} (h : LowerNames L vars) :
    OnDisk L (renderVariables L vars) vars := by
  have hperm := List.perm_insertionSort (fun a b : String × V => a.1 ≤ b.1) vars.items
  have hrender : renderVariables L vars =
      (Dict.empty.setAll (vars.items.insertionSort fun a b => a.1 ≤ b.1)).mapVals
        fun v => doublePercent (L.repr v) := by
    rw [renderVariables, ← Dict.setAll_mapVals]
    refine congrArg (Dict.empty.setAll ·) (List.map_congr_left fun kv hkv => ?_)
    exact congrArg (·, doublePercent (L.repr kv.2)) (h kv (hperm.mem_iff.mp hkv))
  rw [hrender]
  refine ⟨_, loadVariables_mapVals L _, fun name => ?_⟩
  rw [Dict.get_setAll_items, Dict.get_setAll_perm hperm]

/-! ## One event -/

/-- The dictionary that the writer is at. -/
def Writer.vars : Writer V → Option (Dict String V)
  | .write vars => some vars
  | .replace vars _ => some vars
  | _ => none

namespace SaveVariables

/-- The variables, those of a call that has not answered yet included. -/
def latest (s : SaveVariables V) : Dict String V := s.newvars.getD s.allVariables

/-- The dictionaries on their way to the file. -/
def onTheWay (s : SaveVariables V) : List (Dict String V) := s.thread.vars.toList ++ s.varsQueue

end SaveVariables

/-- The last dictionary on its way is the latest one; with none on its way, the latest
one is on disk. -/
structure LastPut (L : Literals V) (s : SaveVariables V) : Prop where
  latestNames : LowerNames L s.latest
  names : ∀ vars ∈ s.onTheWay, LowerNames L vars
  temp : ∀ vars temp, s.thread = .replace vars temp → temp = renderVariables L vars
  last : ∀ vars, s.onTheWay.getLast? = some vars → vars = s.latest
  onDisk : s.onTheWay = [] → OnDisk L s.file s.latest
  stopped : s.thread = .stopped → s.varsQueue = []

/-- The condition on an event: a dictionary is put with names as `configparser` keeps
them, while the queue has room and the writer runs; the writer sees the stop flag with
nothing left in the queue; a write that fails is not the last one. -/
def SaveCondition (L : Literals V) (s : SaveVariables V) : SaveEvent V → Prop
  | .saveVariable varname value =>
      (L.literalEval value).isSome → L.optionxform varname = varname ∧
        s.varsQueue.length < varsQueueSize ∧ s.thread ≠ .stopped
  | .setVariables vars =>
      LowerNames L vars ∧ s.varsQueue.length < varsQueueSize ∧ s.thread ≠ .stopped
  | .check => s.threadStop = true → s.varsQueue = []
  | .fail => s.varsQueue ≠ []
  | _ => True

theorem LowerNames.setAll {L : Literals V} {d : Dict String V} (h : LowerNames L d)
    {items : List (String × V)} (hitems : ∀ kv ∈ items, L.optionxform kv.1 = kv.1) :
    LowerNames L (d.setAll items) := by
  intro kv hkv
  rcases Dict.mem_keys_setAll.mp (List.mem_map_of_mem hkv) with hmem | hmem
  · obtain ⟨kv', hkv', heq⟩ := List.mem_map.mp hmem
    exact heq ▸ hitems kv' hkv'
  · obtain ⟨kv', hkv', heq⟩ := List.mem_map.mp hmem
    exact heq ▸ h kv' hkv'

theorem LowerNames.set {L : Literals V} {d : Dict String V} (h : LowerNames L d) {name : String}
    (hname : L.optionxform name = name) (v : V) : LowerNames L (d.set name v) := by
  have hone : ∀ kv ∈ [(name, v)], L.optionxform kv.1 = kv.1 := fun kv hkv =>
    List.mem_singleton.mp hkv ▸ hname
  exact h.setAll hone

theorem LowerNames.of_load {L : Literals V} {file : Dict String String} {d : Dict String V}
    (hfile : ∀ kv ∈ file.items, L.optionxform kv.1 = kv.1)
    (h : loadVariables L file = some d) : LowerNames L d := by
  have hloop (items : List (String × String)) (allvars : Dict String V)
      (hitems : ∀ kv ∈ items, L.optionxform kv.1 = kv.1) (hall : LowerNames L allvars)
      (hload : items.foldlM
        (fun allvars (name, val) => (readValue L val).map fun v => allvars.set name v) allvars =
          some d) : LowerNames L d := by
    induction items generalizing allvars with
    | nil => exact Option.some.inj hload ▸ hall
    | cons kv items ih =>
      rw [List.foldlM_cons] at hload
      obtain ⟨allvars', hset, hrest⟩ := Option.bind_eq_some_iff.mp hload
      obtain ⟨v, -, rfl⟩ := Option.map_eq_some_iff.mp hset
      obtain ⟨hkv, hitems⟩ := List.forall_mem_cons.mp hitems
      exact ih _ hitems (hall.set hkv v) hrest
  exact hloop file.items Dict.empty hfile (List.forall_mem_nil _) h

namespace LastPut

variable {L : Literals V} {s s' : SaveVariables V}

theorem putNowait (h : LastPut L s) {newvars : Dict String V} (hnames : LowerNames L newvars)
    (hroom : s.varsQueue.length < varsQueueSize) (hrun : s.thread ≠ .stopped) :
    LastPut L (s.putNowait newvars) := by
  rw [SaveVariables.putNowait, if_pos hroom]
  have hway : s.thread.vars.toList ++ (s.varsQueue ++ [newvars]) = s.onTheWay ++ [newvars] :=
    (List.append_assoc _ _ _).symm
  refine ⟨hnames, ?_, h.temp, ?_, ?_, fun hstop => absurd hstop hrun⟩
  · intro vars hvars
    rcases List.mem_append.mp (hway ▸ hvars : vars ∈ s.onTheWay ++ [newvars]) with hmem | hmem
    · exact h.names vars hmem
    · exact List.mem_singleton.mp hmem ▸ hnames
  · intro vars hlast
    have hsnoc : (s.onTheWay ++ [newvars]).getLast? = some vars := hway ▸ hlast
    rw [List.getLast?_concat] at hsnoc
    exact (Option.some.inj hsnoc).symm
  · intro hnil
    have hsnoc : s.onTheWay ++ [newvars] = [] := hway ▸ hnil
    exact absurd hsnoc (List.concat_ne_nil _ _)

/-- The writer leaves a dictionary that it was at behind; the file holds it, unless
another one is on its way. -/
theorem leave (h : LastPut L s) {vars : Dict String V} {file : Dict String String}
    (hat : s.thread.vars = some vars)
    (hfile : s.varsQueue = [] → LowerNames L vars → OnDisk L file vars) :
    LastPut L { s with thread := .check, file := file } := by
  have hway : s.onTheWay = vars :: s.varsQueue := by rw [SaveVariables.onTheWay, hat]; rfl
  refine ⟨h.latestNames, ?_, (fun _ _ ht => nomatch ht), ?_, ?_, (fun ht => nomatch ht)⟩
  · intro v hv
    exact h.names v (hway ▸ List.mem_cons_of_mem _ hv)
  · intro v hv
    have hqueue : s.varsQueue.getLast? = some v := hv
    refine h.last v ?_
    rw [hway, List.getLast?_cons, hqueue, Option.getD_some]
  · intro hnil
    have hempty : s.varsQueue = [] := hnil
    rw [hempty] at hway
    have hlatest : vars = s.latest := h.last vars (by rw [hway]; rfl)
    have hlower : LowerNames L vars := h.names vars (by rw [hway]; exact List.mem_cons_self)
    exact hlatest ▸ hfile hempty hlower

theorem saveVariable (h : LastPut L s) {varname value : String}
    (hc : SaveCondition L s (.saveVariable varname value))
    (hstep : s.step L (.saveVariable varname value) = some s') : LastPut L s' := by
  simp only [SaveVariables.step] at hstep
  split at hstep
  · next hnone =>
    simp only [SaveVariables.saveVariable] at hstep
    cases hvalue : L.literalEval value with
    | none =>
      rw [hvalue] at hstep
      exact Option.some.inj hstep ▸ h
    | some v =>
      rw [hvalue] at hstep
      obtain ⟨hname, hroom, hrun⟩ := hc (hvalue ▸ rfl)
      have hold : LowerNames L s.allVariables := by
        have := h.latestNames
        rwa [SaveVariables.latest, hnone] at this
      exact Option.some.inj hstep ▸ h.putNowait (hold.set hname v) hroom hrun
  · cases hstep

theorem setVariables (h : LastPut L s) {vars : Dict String V}
    (hc : SaveCondition L s (.setVariables vars))
    (hstep : s.step L (.setVariables vars) = some s') : LastPut L s' := by
  simp only [SaveVariables.step] at hstep
  split at hstep
  · next hnone =>
    obtain ⟨hnames, hroom, hrun⟩ := hc
    have hold : LowerNames L s.allVariables := by
      have := h.latestNames
      rwa [SaveVariables.latest, hnone] at this
    exact Option.some.inj hstep ▸ h.putNowait (hold.setAll hnames) hroom hrun
  · cases hstep

theorem move (h : LastPut L s) {thread : Writer V} {varsQueue : List (Dict String V)}
    (hway : thread.vars.toList ++ varsQueue = s.onTheWay)
    (htemp : ∀ vars temp, thread = .replace vars temp → temp = renderVariables L vars)
    (hstop : thread = .stopped → varsQueue = []) :
    LastPut L { s with thread := thread, varsQueue := varsQueue } := by
  obtain ⟨hlatest, hnames, -, hlast, hdisk, -⟩ := h
  rw [← hway] at hnames hlast hdisk
  exact ⟨hlatest, hnames, htemp, hlast, hdisk, hstop⟩

/-- One event that meets its condition. -/
theorem step (h : LastPut L s) {e : SaveEvent V} (hc : SaveCondition L s e)
    (hstep : s.step L e = some s') : LastPut L s' := by
  cases e with
  | saveVariable varname value => exact h.saveVariable hc hstep
  | setVariables vars => exact h.setVariables hc hstep
  | saved =>
    obtain ⟨newvars, hnew, rfl⟩ := Option.map_eq_some_iff.mp hstep
    have hlatest : s.latest = newvars := by rw [SaveVariables.latest, hnew]; rfl
    exact ⟨hlatest ▸ h.latestNames, h.names, h.temp, hlatest ▸ h.last, hlatest ▸ h.onDisk,
      h.stopped⟩
  | disconnect =>
    simp only [SaveVariables.step] at hstep
    split at hstep
    · exact Option.some.inj hstep ▸ ⟨h.latestNames, h.names, h.temp, h.last, h.onDisk, h.stopped⟩
    · cases hstep
  | check =>
    simp only [SaveVariables.step] at hstep
    split at hstep
    · next hthread =>
      obtain rfl := Option.some.inj hstep
      by_cases hstop : s.threadStop = true
      · rw [if_pos hstop]
        apply h.move
        · rw [SaveVariables.onTheWay, hthread]; rfl
        · exact fun _ _ ht => nomatch ht
        · exact fun _ => hc hstop
      · rw [if_neg hstop]
        apply h.move
        · rw [SaveVariables.onTheWay, hthread]; rfl
        · exact fun _ _ ht => nomatch ht
        · exact fun ht => nomatch ht
    · cases hstep
  | get =>
    simp only [SaveVariables.step] at hstep
    split at hstep
    · next vars varsQueue hthread hqueue =>
      obtain rfl := Option.some.inj hstep
      apply h.move
      · rw [SaveVariables.onTheWay, hthread, hqueue]; rfl
      · exact fun _ _ ht => nomatch ht
      · exact fun ht => nomatch ht
    · cases hstep
  | timeout =>
    simp only [SaveVariables.step] at hstep
    split at hstep
    · next hthread hqueue =>
      obtain rfl := Option.some.inj hstep
      apply h.move
      · rw [SaveVariables.onTheWay, hthread]; rfl
      · exact fun _ _ ht => nomatch ht
      · exact fun ht => nomatch ht
    · cases hstep
  | write =>
    simp only [SaveVariables.step] at hstep
    split at hstep
    · next vars hthread =>
      obtain rfl := Option.some.inj hstep
      apply h.move
      · rw [SaveVariables.onTheWay, hthread]; rfl
      · intro vars' temp ht
        obtain ⟨rfl, rfl⟩ := Writer.replace.inj ht
        rfl
      · exact fun ht => nomatch ht
    · cases hstep
  | replace =>
    simp only [SaveVariables.step] at hstep
    split at hstep
    · next vars temp hthread =>
      obtain rfl := Option.some.inj hstep
      have htemp := h.temp vars temp hthread
      refine h.leave (by rw [hthread]; rfl) fun _ hlower => ?_
      exact htemp ▸ renderVariables_onDisk hlower
    · cases hstep
  | fail =>
    simp only [SaveVariables.step] at hstep
    split at hstep
    · next vars hthread =>
      obtain rfl := Option.some.inj hstep
      exact h.leave (by rw [hthread]; rfl) fun hnil => absurd hnil hc
    · next vars temp hthread =>
      obtain rfl := Option.some.inj hstep
      exact h.leave (by rw [hthread]; rfl) fun hnil => absurd hnil hc
    · cases hstep

end LastPut

/-! ## Every run -/

/-- When the writer has stopped and no call is at work, the variables are on disk. -/
def Saved (L : Literals V) (s : SaveVariables V) : Prop :=
  s.thread = .stopped → s.newvars = none → OnDisk L s.file s.allVariables

theorem SaveVariables.init_lastPut {L : Literals V} {file : Dict String String}
    (hfile : ∀ kv ∈ file.items, L.optionxform kv.1 = kv.1) {s : SaveVariables V}
    (h : SaveVariables.init L file = some s) : LastPut L s := by
  obtain ⟨allVariables, hload, rfl⟩ := Option.map_eq_some_iff.mp h
  exact ⟨LowerNames.of_load hfile hload, List.forall_mem_nil _, (fun _ _ ht => nomatch ht),
    (fun _ hlast => nomatch hlast), fun _ => ⟨allVariables, hload, fun _ => rfl⟩,
    (fun ht => nomatch ht)⟩

/-- The literals `True` and `False`. -/
def boolLiterals : Literals Bool where
  repr v := if v then "True" else "False"
  literalEval text :=
    if text = "True" then some true else if text = "False" then some false else none
  optionxform name := String.ofList (name.toList.map Char.toLower)
  literalEval_repr v := by cases v <;> rfl

/-- The module with a new file. -/
def newFile : SaveVariables Bool where
  allVariables := .empty
  varsQueue := []
  threadStop := false
  thread := .check
  file := .empty
  newvars := none

/-- The second of two variables is saved during the write of the first; the printer
disconnects before that write is done. -/
def lostEvents : List (SaveEvent Bool) :=
  [.check, .saveVariable "a" "True", .saved, .get, .saveVariable "b" "True", .saved, .disconnect,
    .write, .replace, .check]

/-- A variable that is written before the printer disconnects. -/
def writtenEvents : List (SaveEvent Bool) :=
  [.check, .saveVariable "a" "True", .saved, .get, .disconnect, .write, .replace, .check]

instance (L : Literals V) (vars : Dict String V) : Decidable (LowerNames L vars) :=
  inferInstanceAs (Decidable (∀ kv ∈ vars.items, L.optionxform kv.1 = kv.1))

instance [DecidableEq V] (L : Literals V) (s : SaveVariables V) :
    (e : SaveEvent V) → Decidable (SaveCondition L s e)
  | .saveVariable varname value => inferInstanceAs (Decidable ((L.literalEval value).isSome →
      L.optionxform varname = varname ∧ s.varsQueue.length < varsQueueSize ∧
        s.thread ≠ .stopped))
  | .setVariables vars => inferInstanceAs (Decidable (LowerNames L vars ∧
      s.varsQueue.length < varsQueueSize ∧ s.thread ≠ .stopped))
  | .check => inferInstanceAs (Decidable (s.threadStop = true → s.varsQueue = []))
  | .fail => inferInstanceAs (Decidable (s.varsQueue ≠ []))
  | .saved | .disconnect | .get | .timeout | .write | .replace => inferInstanceAs (Decidable True)

end FlsunT1.Klippy
