/-
  Klippy/CancelDetection.lean --- the flag of a cancel and the requests of a client
  (klippy/webhooks.py, `ClientConnection.process_received`).

  The flag is moved by a text that is looked for in each chunk, the requests are put
  together from the chunks and decoded.  Whatever the cut, the two agree only where no
  request is meant for the flag and none has the text; in one cut they agree if each text is
  in the chunk that ends its request.
-/
import Mathlib.Data.List.Induction
import FlsunT1.Klippy.HeatBreak

set_option autoImplicit false

namespace FlsunT1.Klippy

open Library

/-! ## Requests -/

/-- What `json.loads` gives. -/
inductive JsonValue
  | dict (entries : List (String × JsonValue))
  | str (s : String)
  | other

/-- `class WebRequest`, as it is made of a request. -/
structure WebRequest where
  method : String
  params : List (String × JsonValue)

namespace WebRequest

/-- `WebRequest.__init__`; there is no result when it raises. -/
def ofJson : JsonValue → Option WebRequest
  | .dict base =>
    match base.lookup "method", (base.lookup "params").getD (.dict []) with
    | some (.str method), .dict params => some ⟨method, params⟩
    | _, _ => none
  | .str _ | .other => none

/-- The request cancels the print. -/
def isCancel (w : WebRequest) : Bool := w.method = cancelText

/-- The request runs a script that starts a print. -/
def startsPrint (w : WebRequest) : Bool :=
  w.method = "gcode/script" &&
    match w.params.lookup "script" with
    | some (.str script) => printFileText.toList.isPrefixOf script.toList
    | _ => false

end WebRequest

/-- The end of a request. -/
abbrev requestEnd : Char := Char.ofNat 3

section Requests

variable (loads : List Char → Option JsonValue)

/-- A request that can be decoded. -/
def webRequest (req : List Char) : Option WebRequest := (loads req).bind WebRequest.ofJson

/-- `get_method` of a request. -/
def methodOf (req : List Char) : Option String := (webRequest loads req).map (·.method)

def IsCancel (req : List Char) : Prop := (webRequest loads req).any WebRequest.isCancel = true

def StartsPrint (req : List Char) : Prop :=
  (webRequest loads req).any WebRequest.startsPrint = true

instance (req : List Char) : Decidable (IsCancel loads req) := inferInstanceAs (Decidable (_ = _))

instance (req : List Char) : Decidable (StartsPrint loads req) :=
  inferInstanceAs (Decidable (_ = _))

/-- What a request means for the flag. -/
def noteRequest (flag : Bool) (req : List Char) : Bool :=
  if IsCancel loads req then true else if StartsPrint loads req then false else flag

end Requests

/-! ## Chunks as Python shows them -/

/-- A byte in the `repr` of bytes. -/
def escapeByte (quote c : Char) : List Char :=
  if c = quote ∨ c = '\\' then ['\\', c]
  else if c = '\t' then ['\\', 't']
  else if c = '\n' then ['\\', 'n']
  else if c = '\r' then ['\\', 'r']
  else if c.toNat < 32 ∨ 127 ≤ c.toNat then
    ['\\', 'x', Nat.digitChar (c.toNat / 16 % 16), Nat.digitChar (c.toNat % 16)]
  else [c]

/-- The quotes of the `repr` of bytes. -/
def quoteOf (data : List Char) : Char :=
  if Char.ofNat 39 ∈ data ∧ '"' ∉ data then '"' else Char.ofNat 39

/-- `str(data)` -/
def strBytes (data : List Char) : List Char :=
  'b' :: quoteOf data :: (data.flatMap (escapeByte (quoteOf data)) ++ [quoteOf data])

theorem digitChar_mem (n : Nat) : Nat.digitChar (n % 16) ∈ "0123456789abcdef".toList := by
  have hall : ∀ m < 16, Nat.digitChar m ∈ "0123456789abcdef".toList := by decide
  exact hall (n % 16) (Nat.mod_lt n (by decide))

/-- A byte stands for itself, or for a backslash and characters that neither text begins
with. -/
theorem escapeByte_cases {a quote : Char} (hquote : a ≠ quote)
    (ha : a ∉ "\\tnrx0123456789abcdef".toList) (c : Char) :
    escapeByte quote c = [c] ∨ ∃ l, escapeByte quote c = '\\' :: l ∧ a ∉ l := by
  have hdigit : ∀ n, a ≠ Nat.digitChar (n % 16) := fun n heq => ha (heq ▸
    List.mem_append_right "\\tnrx".toList (digitChar_mem n))
  have hne : ∀ d ∈ "\\tnrx".toList, a ≠ d := fun d hd heq => ha (heq ▸
    List.mem_append_left "0123456789abcdef".toList hd)
  unfold escapeByte
  split_ifs with hself
  · refine .inr ⟨[c], rfl, ?_⟩
    rw [List.mem_singleton]
    rintro rfl
    exact hself.elim hquote (hne '\\' (by decide))
  · exact .inr ⟨['t'], rfl, List.mem_singleton.not.mpr (hne 't' (by decide))⟩
  · exact .inr ⟨['n'], rfl, List.mem_singleton.not.mpr (hne 'n' (by decide))⟩
  · exact .inr ⟨['r'], rfl, List.mem_singleton.not.mpr (hne 'r' (by decide))⟩
  · refine .inr ⟨_, rfl, ?_⟩
    simp only [List.mem_cons, List.not_mem_nil, or_false, not_or]
    exact ⟨hne 'x' (by decide), hdigit _, hdigit _⟩
  · exact .inl rfl

theorem escapeByte_plain {quote c : Char} (hquote : c ≠ quote) (hbackslash : c ≠ '\\')
    (hlow : 32 ≤ c.toNat) (hhigh : c.toNat < 127) : escapeByte quote c = [c] := by
  have hcontrol : ∀ d : Char, d.toNat < 32 → c ≠ d := by
    rintro d hd rfl
    omega
  unfold escapeByte
  rw [if_neg (not_or.mpr ⟨hquote, hbackslash⟩), if_neg (hcontrol '\t' (by decide)),
    if_neg (hcontrol '\n' (by decide)), if_neg (hcontrol '\r' (by decide)), if_neg (by omega)]

/-- A text that stands in the `repr` of bytes as it does in the bytes. -/
structure UnescapedText (a : Char) (s : List Char) : Prop where
  head : a ∉ "b\\tnrx0123456789abcdef".toList
  chars : ∀ c ∈ a :: s, 32 ≤ c.toNat ∧ c.toNat < 127 ∧ c ≠ '\\' ∧ c ≠ '"' ∧ c ≠ Char.ofNat 39

/-- A plain text is in `str(data)` if and only if it is in the bytes. -/
theorem infix_strBytes_iff {a : Char} {s : List Char} (h : UnescapedText a s) (data : List Char) :
    a :: s <:+: strBytes data ↔ a :: s <:+: data := by
  have hquote : ∀ c ∈ a :: s, c ≠ quoteOf data := by
    intro c hc
    unfold quoteOf
    obtain ⟨-, -, -, hdouble, hsingle⟩ := h.chars c hc
    split
    · exact hdouble
    · exact hsingle
  have hhead : a ∉ "\\tnrx0123456789abcdef".toList := fun hmem => h.head (List.mem_cons_of_mem _ hmem)
  have hbody : a :: s <:+: data.flatMap (escapeByte (quoteOf data)) ↔ a :: s <:+: data := by
    apply infix_flatMap_iff (b := '\\')
    · exact escapeByte_cases (hquote a List.mem_cons_self) hhead
    · exact fun hmem => (h.chars _ hmem).2.2.1 rfl
    · intro c hc
      obtain ⟨hlow, hhigh, hbackslash, -⟩ := h.chars c hc
      exact escapeByte_plain (hquote c hc) hbackslash hlow hhigh
  rw [← hbody]
  constructor
  · intro hinfix
    have hb : a ∉ ['b', quoteOf data] := by
      simp only [List.mem_cons, List.not_mem_nil, or_false, not_or]
      exact ⟨fun heq => h.head (heq ▸ List.mem_cons_self), hquote a List.mem_cons_self⟩
    have hrest := infix_append_of_not_mem hb hinfix
    have hlast : quoteOf data ∉ a :: s := fun hmem => hquote _ hmem rfl
    obtain hin | hnil := (infix_append_cons_iff (b := []) hlast).mp hrest
    · exact hin
    · exact absurd (List.infix_nil.mp hnil) (List.cons_ne_nil _ _)
  · rintro ⟨u, v, huv⟩
    refine ⟨'b' :: quoteOf data :: u, v ++ [quoteOf data], ?_⟩
    rw [strBytes, ← huv]
    simp only [List.cons_append, List.append_assoc]

theorem strBytes_texts (data : String) :
    (cancelText.toList <:+: strBytes data.toList ↔ isSubstring cancelText data = true) ∧
      (printFileText.toList <:+: strBytes data.toList ↔ isSubstring printFileText data = true) := by
  constructor
  · rw [isSubstring, decide_eq_true_iff]
    exact infix_strBytes_iff ⟨by decide, by decide⟩ data.toList
  · rw [isSubstring, decide_eq_true_iff]
    exact infix_strBytes_iff ⟨by decide, by decide⟩ data.toList

/-! ## Chunks and requests -/

/-- The chunks of a stream of requests: `recv` gives up to 4096 bytes, and none only at the
end of the connection. -/
structure IsCut (reqs : List (List Char)) (chunks : List String) : Prop where
  text : chunks.flatMap String.toList = joinLines requestEnd reqs
  sizes : ∀ data ∈ chunks, 0 < data.length ∧ data.length ≤ 4096

section Agreement

variable (loads : List Char → Option JsonValue) (conn : Nat)

/-- The flag and the requests agree on a chunk: it is set where a cancel is received, cleared
where a print is started, and left as the requests leave it. -/
structure ChunkAgrees (s : HeatState) (data : String) : Prop where
  sets : cancelText.toList <:+: strBytes data.toList ↔
    ∃ req ∈ requestsOf (s.partialData conn) data, IsCancel loads req
  clears : printFileText.toList <:+: strBytes data.toList ↔
    ∃ req ∈ requestsOf (s.partialData conn) data, StartsPrint loads req
  flag : (s.processReceived (methodOf loads) conn data).heatBreak =
    (requestsOf (s.partialData conn) data).foldl (noteRequest loads) s.heatBreak

/-- The state after chunks. -/
def receive (s : HeatState) (chunks : List String) : HeatState :=
  chunks.foldl (fun s data => s.processReceived (methodOf loads) conn data) s

/-- The flag and the requests agree on every chunk, after those before it. -/
def FlagAgrees (s : HeatState) (chunks : List String) : Prop :=
  ∀ before data after, chunks = before ++ data :: after →
    ChunkAgrees loads conn (receive loads conn s before) data

/-- A request that is not meant for the flag and has neither text. -/
structure Unmentioned (req : List Char) : Prop where
  cancelText : ¬ cancelText.toList <:+: req
  printFileText : ¬ printFileText.toList <:+: req
  isCancel : ¬ IsCancel loads req
  startsPrint : ¬ StartsPrint loads req

/-- A request that has a text if and only if it is meant for the flag. -/
structure Plain (req : List Char) : Prop where
  cancelText : Klippy.cancelText.toList <:+: req ↔ IsCancel loads req
  printFileText : Klippy.printFileText.toList <:+: req ↔ StartsPrint loads req

/-- A text is in the chunk that ends its request: not in what is left unfinished, and not cut
off from the end of the request that the chunk goes on with. -/
structure KeepsText (text : String) (unfinished : List Char) (data : List Char) : Prop where
  tail : ¬ text.toList <:+: tailOf requestEnd data
  first : ∀ req, (linesOf requestEnd data).head? = some req →
    text.toList <:+: unfinished ++ req → text.toList <:+: req

/-- The condition on a chunk: it keeps both texts, and does not receive a cancel and the
start of a print together. -/
structure KeepsTexts (s : HeatState) (data : String) : Prop where
  cancelText : KeepsText cancelText (s.partialData conn) data.toList
  printFileText : KeepsText printFileText (s.partialData conn) data.toList
  apart : ¬ ((∃ req ∈ requestsOf (s.partialData conn) data, IsCancel loads req) ∧
    ∃ req ∈ requestsOf (s.partialData conn) data, StartsPrint loads req)

end Agreement

section Receive

variable {loads : List Char → Option JsonValue} {conn : Nat} {s : HeatState}

theorem receive_partialData (hs : s.partialData conn = []) (chunks : List String) :
    (receive loads conn s chunks).partialData conn =
      tailOf requestEnd (chunks.flatMap String.toList) := by
  induction chunks using List.reverseRecOn with
  | nil => exact hs
  | append_singleton chunks data ih =>
    rw [receive, List.foldl_append, List.flatMap_append, List.flatMap_singleton,
      (linesOf_append_tail _ _).2, ← ih]
    exact if_pos rfl

theorem mem_of_requestsOf {reqs : List (List Char)} {before after : List String} {data : String}
    (hcut : IsCut reqs (before ++ data :: after)) (hreqs : ∀ req ∈ reqs, requestEnd ∉ req)
    (hs : s.partialData conn = []) {req : List Char}
    (h : req ∈ requestsOf ((receive loads conn s before).partialData conn) data) : req ∈ reqs := by
  have hstream : before.flatMap String.toList ++ data.toList ++ after.flatMap String.toList =
      joinLines requestEnd reqs := by
    rw [← hcut.text, List.flatMap_append, List.flatMap_cons, List.append_assoc]
  have hlines : linesOf requestEnd (joinLines requestEnd reqs) = reqs := by
    have hjoin := linesOf_joinLines hreqs []
    rw [List.append_nil, linesOf_eq_nil List.not_mem_nil, List.append_nil] at hjoin
    exact hjoin
  rw [requestsOf, receive_partialData hs] at h
  rw [← hlines, ← hstream, (linesOf_append_tail _ _).1, (linesOf_append_tail _ data.toList).1]
  exact List.mem_append_left _ (List.mem_append_right _ h)

theorem infix_of_chunk {reqs : List (List Char)} {before after : List String} {data : String}
    (hcut : IsCut reqs (before ++ data :: after)) {text : List Char} (h : text <:+: data.toList) :
    text <:+: joinLines requestEnd reqs := by
  rw [← hcut.text, List.flatMap_append, List.flatMap_cons]
  exact h.trans (List.infix_append' _ _ _)

end Receive

/-! ## One chunk -/

section Chunk

variable {loads : List Char → Option JsonValue} {conn : Nat} {s : HeatState}
  {reqs : List (List Char)} {data : String}

theorem foldl_of_noCancel (h : ∀ req ∈ reqs, ¬ IsCancel loads req) (flag : Bool) :
    reqs.foldl (noteRequest loads) flag =
      (flag && !decide (∃ req ∈ reqs, StartsPrint loads req)) := by
  induction reqs generalizing flag with
  | nil => simp
  | cons req reqs ih =>
    obtain ⟨hreq, hrest⟩ := List.forall_mem_cons.mp h
    rw [List.foldl_cons, ih hrest, noteRequest, if_neg hreq]
    by_cases hstarts : StartsPrint loads req
    · simp [hstarts]
    · simp [hstarts]

theorem foldl_of_noPrint (h : ∀ req ∈ reqs, ¬ StartsPrint loads req) (flag : Bool) :
    reqs.foldl (noteRequest loads) flag =
      (flag || decide (∃ req ∈ reqs, IsCancel loads req)) := by
  induction reqs generalizing flag with
  | nil => simp
  | cons req reqs ih =>
    obtain ⟨hreq, hrest⟩ := List.forall_mem_cons.mp h
    rw [List.foldl_cons, ih hrest, noteRequest, if_neg hreq]
    by_cases hcancel : IsCancel loads req
    · simp [hcancel]
    · simp [hcancel]

theorem matchTexts_eq (flag : Bool) : matchTexts data flag =
    ((flag || isSubstring cancelText data) && !isSubstring printFileText data) := by
  rw [matchTexts]
  cases isSubstring cancelText data <;> cases isSubstring printFileText data <;> simp

/-- A chunk that has each text where it receives what the text stands for, and does not
receive both, moves the flag as the requests do. -/
theorem chunkAgrees_of_texts
    (hsets : cancelText.toList <:+: data.toList ↔
      ∃ req ∈ requestsOf (s.partialData conn) data, IsCancel loads req)
    (hclears : printFileText.toList <:+: data.toList ↔
      ∃ req ∈ requestsOf (s.partialData conn) data, StartsPrint loads req)
    (hapart : ¬ ((∃ req ∈ requestsOf (s.partialData conn) data, IsCancel loads req) ∧
      ∃ req ∈ requestsOf (s.partialData conn) data, StartsPrint loads req)) :
    ChunkAgrees loads conn s data := by
  have htexts := strBytes_texts data
  have hcancel : isSubstring cancelText data =
      decide (∃ req ∈ requestsOf (s.partialData conn) data, IsCancel loads req) :=
    decide_eq_decide.mpr hsets
  have hprint : isSubstring printFileText data =
      decide (∃ req ∈ requestsOf (s.partialData conn) data, StartsPrint loads req) :=
    decide_eq_decide.mpr hclears
  refine ⟨htexts.1.trans (decide_eq_true_iff.trans hsets),
    htexts.2.trans (decide_eq_true_iff.trans hclears), ?_⟩
  show matchTexts data s.heatBreak = _
  rw [matchTexts_eq, hcancel, hprint]
  by_cases hany : ∃ req ∈ requestsOf (s.partialData conn) data, IsCancel loads req
  · have hnone : ¬ ∃ req ∈ requestsOf (s.partialData conn) data, StartsPrint loads req :=
      fun hstarts => hapart ⟨hany, hstarts⟩
    rw [foldl_of_noPrint fun req hreq hstarts => hnone ⟨req, hreq, hstarts⟩,
      decide_eq_false hnone, Bool.not_false, Bool.and_true]
  · rw [foldl_of_noCancel fun req hreq hcancels => hany ⟨req, hreq, hcancels⟩,
      decide_eq_false hany, Bool.or_false]

theorem KeepsText.infix_iff {text : String} {unfinished : List Char}
    (h : KeepsText text unfinished data.toList) (htext : requestEnd ∉ text.toList)
    (hunfinished : requestEnd ∉ unfinished) :
    text.toList <:+: data.toList ↔ ∃ req ∈ requestsOf unfinished data, text.toList <:+: req := by
  rw [infix_iff_linesOf htext, requestsOf, linesOf_append_of_not_mem hunfinished]
  rw [or_iff_left h.tail]
  cases hlines : linesOf requestEnd data.toList with
  | nil => rfl
  | cons req reqs =>
    have hfirst : text.toList <:+: unfinished ++ req ↔ text.toList <:+: req :=
      ⟨h.first req (by rw [hlines]; rfl), List.infix_append_of_infix_right⟩
    rw [List.modifyHead_cons, List.exists_mem_cons_iff, List.exists_mem_cons_iff, hfirst]

end Chunk

/-! ## Every cut -/

/-- A text in chunks of one byte. -/
def bytewise (text : List Char) : List String := text.map String.singleton

theorem flatMap_bytewise (text : List Char) : (bytewise text).flatMap String.toList = text := by
  induction text with
  | nil => rfl
  | cons c text ih =>
    rw [bytewise, List.map_cons, List.flatMap_cons, ← bytewise, ih, String.toList_singleton,
      List.singleton_append]

theorem length_of_mem_bytewise {text : List Char} {data : String} (h : data ∈ bytewise text) :
    data.length = 1 := by
  obtain ⟨c, -, rfl⟩ := List.mem_map.mp h
  exact String.length_singleton

theorem isCut_bytewise {reqs : List (List Char)} {before after : List Char} {data : String}
    (h : joinLines requestEnd reqs = before ++ data.toList ++ after) (hpos : 0 < data.length)
    (hle : data.length ≤ 4096) : IsCut reqs (bytewise before ++ data :: bytewise after) := by
  constructor
  · rw [List.flatMap_append, List.flatMap_cons, flatMap_bytewise, flatMap_bytewise, h,
      List.append_assoc]
  · intro chunk hchunk
    obtain hchunk | hchunk := List.mem_append.mp hchunk
    · rw [length_of_mem_bytewise hchunk]
      decide
    · obtain rfl | hchunk := List.mem_cons.mp hchunk
      · exact ⟨hpos, hle⟩
      · rw [length_of_mem_bytewise hchunk]
        decide

section Unmentioned

variable {loads : List Char → Option JsonValue} {conn : Nat} {s : HeatState}
  {reqs : List (List Char)}

theorem not_mem_texts : requestEnd ∉ cancelText.toList ∧ requestEnd ∉ printFileText.toList := by
  decide

theorem requestsOf_eq_nil {u : List Char} {data : String} (hu : requestEnd ∉ u)
    (hdata : requestEnd ∉ data.toList) : requestsOf u data = [] := by
  apply linesOf_eq_nil
  rw [List.mem_append, not_or]
  exact ⟨hu, hdata⟩

/-- A text in a request, in a chunk of its own, moves the flag without a request. -/
theorem not_infix_of_agrees (h : ∀ chunks, IsCut reqs chunks → FlagAgrees loads conn s chunks)
    (hs : s.partialData conn = []) {req : List Char} (hreq : req ∈ reqs) :
    ¬ cancelText.toList <:+: req ∧ ¬ printFileText.toList <:+: req := by
  have hstream : ∀ {text : List Char}, text <:+: req → text <:+: joinLines requestEnd reqs := by
    intro text htext
    obtain ⟨pre, post, rfl⟩ := List.append_of_mem hreq
    rw [joinLines_append, joinLines_cons]
    exact htext.trans (List.infix_append' _ _ _)
  have hunfinished : ∀ before, requestEnd ∉
      (receive loads conn s before).partialData conn := by
    intro before
    rw [receive_partialData hs]
    exact not_mem_tailOf _
  constructor
  · intro hinfix
    obtain ⟨before, after, htext⟩ := hstream hinfix
    have hagrees := h _ (isCut_bytewise htext.symm (by decide) (by decide)) _ _ _ rfl
    have hsets := hagrees.sets.mp ((strBytes_texts cancelText).1.mpr (by decide))
    rw [requestsOf_eq_nil (hunfinished _) not_mem_texts.1] at hsets
    exact absurd hsets fun ⟨_, hmem, _⟩ => List.not_mem_nil hmem
  · intro hinfix
    obtain ⟨before, after, htext⟩ := hstream hinfix
    have hagrees := h _ (isCut_bytewise htext.symm (by decide) (by decide)) _ _ _ rfl
    have hclears := hagrees.clears.mp ((strBytes_texts printFileText).2.mpr (by decide))
    rw [requestsOf_eq_nil (hunfinished _) not_mem_texts.2] at hclears
    exact absurd hclears fun ⟨_, hmem, _⟩ => List.not_mem_nil hmem

/-- A request whose end is a chunk of its own is received without a text. -/
theorem not_meant_of_agrees (h : ∀ chunks, IsCut reqs chunks → FlagAgrees loads conn s chunks)
    (hs : s.partialData conn = []) (hreqs : ∀ req ∈ reqs, requestEnd ∉ req) {req : List Char}
    (hreq : req ∈ reqs) : ¬ IsCancel loads req ∧ ¬ StartsPrint loads req := by
  obtain ⟨pre, post, rfl⟩ := List.append_of_mem hreq
  have hpre : ∀ r ∈ pre, requestEnd ∉ r := fun r hr => hreqs r (List.mem_append_left _ hr)
  have hstream : joinLines requestEnd (pre ++ req :: post) =
      (joinLines requestEnd pre ++ req) ++ (String.singleton requestEnd).toList ++
        joinLines requestEnd post := by
    rw [joinLines_append, joinLines_cons, String.toList_singleton, List.append_assoc,
      List.append_assoc, List.singleton_append]
  have hagrees := h _ (isCut_bytewise hstream (by decide) (by decide)) _ _ _ rfl
  have hreceived : requestsOf ((receive loads conn s
      (bytewise (joinLines requestEnd pre ++ req))).partialData conn)
      (String.singleton requestEnd) = [req] := by
    rw [receive_partialData hs, flatMap_bytewise, tailOf_joinLines_append hpre (hreqs req hreq),
      requestsOf, String.toList_singleton, linesOf_line (hreqs req hreq)]
    rfl
  constructor
  · intro hcancel
    have htext := hagrees.sets.mpr ⟨req, hreceived ▸ List.mem_singleton_self req, hcancel⟩
    exact absurd ((strBytes_texts _).1.mp htext) (by decide)
  · intro hstarts
    have htext := hagrees.clears.mpr ⟨req, hreceived ▸ List.mem_singleton_self req, hstarts⟩
    exact absurd ((strBytes_texts _).2.mp htext) (by decide)

/-- Where nothing is meant for the flag and neither text stands, nothing moves it. -/
theorem agrees_of_quiet (hquiet : ∀ req ∈ reqs, Unmentioned loads req) (hs : s.partialData conn = [])
    (hreqs : ∀ req ∈ reqs, requestEnd ∉ req) {chunks : List String} (hcut : IsCut reqs chunks) :
    FlagAgrees loads conn s chunks := by
  rintro before data after rfl
  have hmem : ∀ req ∈ requestsOf ((receive loads conn s before).partialData conn) data,
      Unmentioned loads req := fun req hreq => hquiet req (mem_of_requestsOf hcut hreqs hs hreq)
  have htext : ∀ {text : List Char}, requestEnd ∉ text → text ≠ [] →
      (∀ req ∈ reqs, ¬ text <:+: req) → ¬ text <:+: data.toList := by
    intro text hend hne hnone hinfix
    have hstream := infix_of_chunk hcut hinfix
    rw [← List.append_nil (joinLines _ _), infix_joinLines_append_iff hend] at hstream
    obtain ⟨req, hreq, hin⟩ | hnil := hstream
    · exact hnone req hreq hin
    · exact hne (List.infix_nil.mp hnil)
  have hcancel : ¬ ∃ req ∈ requestsOf ((receive loads conn s before).partialData conn) data,
      IsCancel loads req := fun ⟨req, hreq, h⟩ => (hmem req hreq).isCancel h
  have hprint : ¬ ∃ req ∈ requestsOf ((receive loads conn s before).partialData conn) data,
      StartsPrint loads req := fun ⟨req, hreq, h⟩ => (hmem req hreq).startsPrint h
  apply chunkAgrees_of_texts
  · exact iff_of_false (htext not_mem_texts.1 (by decide) fun req hreq =>
      (hquiet req hreq).cancelText) hcancel
  · exact iff_of_false (htext not_mem_texts.2 (by decide) fun req hreq =>
      (hquiet req hreq).printFileText) hprint
  · exact fun h => hcancel h.1

/-- In one cut of requests that have the texts where they are meant for the flag, keeping the
texts is enough. -/
theorem agrees_of_keepsTexts (hplain : ∀ req ∈ reqs, Plain loads req)
    (hs : s.partialData conn = []) (hreqs : ∀ req ∈ reqs, requestEnd ∉ req)
    {chunks : List String} (hcut : IsCut reqs chunks)
    (hkeeps : ∀ before data after, chunks = before ++ data :: after →
      KeepsTexts loads conn (receive loads conn s before) data) :
    FlagAgrees loads conn s chunks := by
  rintro before data after rfl
  have hmem : ∀ req ∈ requestsOf ((receive loads conn s before).partialData conn) data,
      Plain loads req := fun req hreq => hplain req (mem_of_requestsOf hcut hreqs hs hreq)
  have hunfinished : requestEnd ∉ (receive loads conn s before).partialData conn := by
    rw [receive_partialData hs]
    exact not_mem_tailOf _
  obtain ⟨hcancel, hprint, hapart⟩ := hkeeps before data after rfl
  apply chunkAgrees_of_texts
  · rw [hcancel.infix_iff not_mem_texts.1 hunfinished]
    exact exists_congr fun req => and_congr_right fun hreq => (hmem req hreq).cancelText
  · rw [hprint.infix_iff not_mem_texts.2 hunfinished]
    exact exists_congr fun req => and_congr_right fun hreq => (hmem req hreq).printFileText
  · exact hapart

end Unmentioned

/-- **When the flag agrees with the requests.**  It does for every cut of a stream if and only
if no request of it is meant for the flag and none has either text.  For one cut it does if
the requests that are meant for the flag are those that have the texts, and each text is in
the chunk that ends its request. -/
theorem flag_agrees_iff (loads : List Char → Option JsonValue) (conn : Nat) (s : HeatState)
    (hs : s.partialData conn = []) (reqs : List (List Char))
    (hreqs : ∀ req ∈ reqs, requestEnd ∉ req) :
    ((∀ chunks, IsCut reqs chunks → FlagAgrees loads conn s chunks) ↔
      ∀ req ∈ reqs, Unmentioned loads req) ∧
    ((∀ req ∈ reqs, Plain loads req) → ∀ chunks, IsCut reqs chunks →
      (∀ before data after, chunks = before ++ data :: after →
        KeepsTexts loads conn (receive loads conn s before) data) →
      FlagAgrees loads conn s chunks) := by
  refine ⟨⟨fun h req hreq => ?_, fun hquiet chunks => agrees_of_quiet hquiet hs hreqs⟩,
    fun hplain chunks => agrees_of_keepsTexts hplain hs hreqs⟩
  obtain ⟨hcancel, hprint⟩ := not_infix_of_agrees h hs hreq
  obtain ⟨hmeant, hstarts⟩ := not_meant_of_agrees h hs hreqs hreq
  exact ⟨hcancel, hprint, hmeant, hstarts⟩

/-- `json.loads` of the cancel request. -/
def loadsCancel (req : List Char) : Option JsonValue :=
  if req = cancelRequest.toList then
    some (.dict [("id", .other), ("method", .str cancelText), ("params", .dict [])])
  else none

/-- The cancel request in one chunk. -/
theorem flag_agrees_iff_cancel : FlagAgrees loadsCancel 0 .init [cancelChunk] := by
  apply (flag_agrees_iff loadsCancel 0 .init rfl [cancelRequest.toList] ?_).2
  · intro req hreq
    rw [List.mem_singleton.mp hreq]
    exact ⟨by decide +kernel, by decide +kernel⟩
  · exact ⟨by decide +kernel, by decide +kernel⟩
  · intro before data after hchunks
    obtain ⟨rfl, rfl, rfl⟩ : before = [] ∧ data = cancelChunk ∧ after = [] := by
      cases before with
      | nil =>
        obtain ⟨rfl, rfl⟩ := List.cons.inj hchunks
        exact ⟨rfl, rfl, rfl⟩
      | cons first before =>
        have hnil := (List.cons.inj hchunks).2
        exact absurd hnil.symm (List.append_ne_nil_of_right_ne_nil _ (List.cons_ne_nil _ _))
    exact ⟨⟨by decide +kernel, fun _ _ h => h⟩, ⟨by decide +kernel, fun _ _ h => h⟩,
      by decide +kernel⟩
  · intro req hreq
    rw [List.mem_singleton.mp hreq]
    decide +kernel

/-- The cancel request, cut inside its method: it is received, and the flag is not set. -/
theorem cancel_cut_in_method :
    let chunks := ["\x7b\"id\":1,\"method\":\"pause_resume",
      "/cancel\",\"params\":\x7b\x7d\x7d" ++ String.ofList [requestEnd]]
    IsCut [cancelRequest.toList] chunks ∧
      IsCancel loadsCancel cancelRequest.toList ∧
      (receive loadsCancel 0 .init chunks).heatBreak = false ∧
      ¬ FlagAgrees loadsCancel 0 .init chunks := by
  intro chunks
  refine ⟨⟨by decide +kernel, by decide +kernel⟩, by decide +kernel, by decide +kernel,
    fun h => ?_⟩
  have hsets := (h [_] _ [] rfl).sets.mpr ⟨cancelRequest.toList, by decide +kernel, by decide +kernel⟩
  exact absurd ((strBytes_texts _).1.mp hsets) (by decide +kernel)

end FlsunT1.Klippy
