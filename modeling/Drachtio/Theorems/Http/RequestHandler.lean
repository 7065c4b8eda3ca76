import Drachtio.Http.RequestHandler
import Mathlib.Data.List.TakeWhile

/-! The requests to the routing server, in every run of the handler: an easy handle is in the cache or with one request, a
    request is reported once, under its own id, and with the body its server sent. A handle keeps the fields of a POST,
    though, so that a GET that comes after it is sent as a POST, with a body that is no longer there. -/

namespace Drachtio.Http
namespace RequestHandler

open Sip (Text cText)

/-! ### What the handlers do -/

section
variable {h : RequestHandler} {r : Request} {env : StartEnv} {easy code : Nat} {ptr : Text}

/-- The handles as a pool -/
def pool (h : RequestHandler) : Pool := ⟨h.cache, h.conns.map (·.easy) ++ h.lost.map (·.2), h.made⟩

theorem acquire_eq : h.acquire = ({ h with cache := h.pool.take.free, made := h.pool.take.made }, h.pool.next) := by
  unfold acquire pool Pool.take Pool.next
  cases hcache : h.cache <;> simp [hcache]

theorem startRequest_direct (hdirect : isDirect r.url = true) : h.startRequest r env = { h with
    requests := h.requests ++ [r]
    completed := h.completed ++ [⟨h.requests.length, r.transactionId, 200, directReply r.url, []⟩] } := by
  unfold startRequest
  rw [if_pos hdirect]

/-- The options of the handle that a request gets -/
def newOptions (h : RequestHandler) (r : Request) (env : StartEnv) : Options :=
  setOptions h.requests.length r env (h.options h.pool.next)

theorem startRequest_added (hdirect : isDirect r.url = false) (hadded : env.added = true) : h.startRequest r env =
    { h with
      cache := h.pool.take.free
      made := h.pool.take.made
      options := Function.update h.options h.pool.next (h.newOptions r env)
      conns := h.conns ++ [⟨h.requests.length, h.pool.next, copied txnIdLen r.transactionId env.beyondTransactionId, [], []⟩]
      requests := h.requests ++ [r]
      sent := h.sent ++ [⟨h.requests.length, h.pool.next, r.httpMethod, h.newOptions r env⟩] } := by
  simp only [startRequest, hdirect, Bool.false_eq_true, if_false, acquire_eq, hadded, if_true]
  rfl

theorem startRequest_refused (hdirect : isDirect r.url = false) (hadded : env.added = false) : h.startRequest r env =
    { h with
      cache := h.pool.take.free
      made := h.pool.take.made
      options := Function.update h.options h.pool.next (h.newOptions r env)
      lost := h.lost ++ [(h.requests.length, h.pool.next)]
      requests := h.requests ++ [r] } := by
  simp only [startRequest, hdirect, Bool.false_eq_true, if_false, acquire_eq, hadded]
  rfl

/-- The three ways a request can be started -/
theorem start_cases (r : Request) (env : StartEnv) :
    isDirect r.url = true ∨ (isDirect r.url = false ∧ env.added = true) ∨ (isDirect r.url = false ∧ env.added = false) := by
  cases isDirect r.url <;> cases env.added <;> simp

/-- A transfer that is done is that of a request on its way, which is then no longer on its way. -/
theorem checkMultiInfo_cases (h : RequestHandler) (easy code : Nat) : h.checkMultiInfo easy code = h ∨ ∃ before conn after,
    conn.easy = easy ∧ h.conns = before ++ conn :: after ∧ h.checkMultiInfo easy code = { h with
      completed := h.completed ++ [⟨conn.serial, conn.transactionId, code, conn.response, conn.received⟩]
      cache := h.cache ++ [easy]
      conns := before ++ after } := by
  unfold checkMultiInfo
  cases hfind : h.conns.find? (·.easy = easy) with
  | none => exact Or.inl rfl
  | some conn =>
    obtain ⟨heasy, before, after, hconns, hbefore⟩ := List.find?_eq_some_iff_append.mp hfind
    have hne : ∀ c ∈ before, ¬ (decide (c.easy = easy)) = true := fun c hc => by simpa using hbefore c hc
    have herase : h.conns.eraseP (·.easy = easy) = before ++ after := by
      rw [hconns, List.eraseP_append_right _ hne]
      exact congrArg _ (List.eraseP_cons_of_pos (p := fun c : ConnInfo => decide (c.easy = easy)) heasy)
    refine Or.inr ⟨before, conn, after, of_decide_eq_true heasy, hconns, ?_⟩
    rw [herase]

theorem receive_easies : (h.receive easy ptr).conns.map (·.easy) = h.conns.map (·.easy) := by
  unfold receive
  rw [List.map_map]
  refine List.map_congr_left fun conn _ => ?_
  rw [Function.comp_apply]
  split <;> rfl

theorem receive_serials : (h.receive easy ptr).conns.map (·.serial) = h.conns.map (·.serial) := by
  unfold receive
  rw [List.map_map]
  refine List.map_congr_left fun conn _ => ?_
  rw [Function.comp_apply]
  split <;> rfl

end

/-! ### The handles -/

theorem sound_init : init.pool.Sound := Pool.sound_init

theorem pool_moves (h : RequestHandler) (op : Op) : h.pool.Moves (h.step op).pool := by
  cases op with
  | start r env =>
    rcases start_cases r env with hdirect | ⟨hdirect, hadded⟩ | ⟨hdirect, hadded⟩
    · rw [step, startRequest_direct hdirect]
      exact Or.inl ⟨rfl, .rfl, rfl⟩
    · rw [step, startRequest_added hdirect hadded]
      refine Or.inr (Or.inl ⟨rfl, ?_, rfl⟩)
      change (List.map _ (h.conns ++ [_]) ++ _).Perm (h.pool.next :: (_ ++ _))
      rw [List.map_append, List.append_assoc]
      exact List.perm_middle
    · rw [step, startRequest_refused hdirect hadded]
      refine Or.inr (Or.inl ⟨rfl, ?_, rfl⟩)
      change (_ ++ List.map _ (h.lost ++ [_])).Perm (h.pool.next :: (_ ++ _))
      rw [List.map_append, ← List.append_assoc]
      exact List.perm_append_singleton _ _
  | receive easy ptr =>
    refine Or.inl ⟨rfl, ?_, rfl⟩
    change (List.map _ (h.receive easy ptr).conns ++ _).Perm _
    rw [receive_easies]
    exact .rfl
  | done easy code =>
    rcases checkMultiInfo_cases h easy code with hsame | ⟨before, conn, after, rfl, hconns, hdone⟩
    · rw [step, hsame]
      exact Or.inl ⟨rfl, .rfl, rfl⟩
    · rw [step, hdone]
      have htaken : h.pool.taken.Perm (conn.easy :: ((before ++ after).map (·.easy) ++ h.lost.map (·.2))) := by
        change (h.conns.map _ ++ _).Perm _
        rw [hconns, List.map_append, List.map_cons, List.map_append, List.append_assoc, List.append_assoc, List.cons_append]
        exact List.perm_middle
      have hmem : conn.easy ∈ h.pool.taken := htaken.mem_iff.mpr List.mem_cons_self
      refine Or.inr (Or.inr ⟨conn.easy, ?_⟩)
      rw [Pool.give, if_pos hmem]
      have herase := htaken.erase conn.easy
      rw [List.erase_cons_head] at herase
      exact ⟨rfl, herase.symm, rfl⟩

theorem pool_sound (ops : List Op) : (Machine.run step init ops).pool.Sound :=
  Pool.run_sound pool_moves sound_init

/-- In every run each easy handle is in the cache, with one request on its way, or lost by a refusal of libcurl, and only
    once; and no more than the first four are made unless all of them were in use or lost at one time. -/
theorem handles_kept (ops : List Op) :
    ((Machine.run step init ops).cache ++ ((Machine.run step init ops).conns.map (·.easy) ++
      (Machine.run step init ops).lost.map (·.2))).Perm (List.range (Machine.run step init ops).made) ∧
    ((Machine.run step init ops).made = easyHandleCacheSize ∨ ∃ done, done <+: ops ∧
      (Machine.run step init done).conns.length + (Machine.run step init done).lost.length =
        (Machine.run step init ops).made) := by
  refine ⟨pool_sound ops, ?_⟩
  rcases Pool.run_made pool_moves sound_init with hmade | ⟨done, hdone, hlen⟩
  · exact Or.inl hmade
  · refine Or.inr ⟨done, hdone, ?_⟩
    rwa [pool, List.length_append, List.length_map, List.length_map] at hlen

/-! ### What is reported -/

/-- The numbers of the requests by what became of them -/
def serials (h : RequestHandler) : List Nat :=
  h.completed.map (·.serial) ++ (h.conns.map (·.serial) ++ h.lost.map (·.1))

/-- Every request was reported, is on its way or was lost, and only one of these. -/
def Counted (h : RequestHandler) : Prop := h.serials.Perm (List.range h.requests.length)

theorem Counted.started {h h' : RequestHandler} {r : Request} (hcounted : h.Counted)
    (hserials : h'.serials.Perm (h.requests.length :: h.serials)) (hrequests : h'.requests = h.requests ++ [r]) :
    h'.Counted := by
  unfold Counted at hcounted ⊢
  rw [hrequests, List.length_append, List.length_singleton, List.range_succ]
  exact hserials.trans ((List.Perm.cons _ hcounted).trans (List.perm_append_singleton _ _).symm)

theorem counted_step {h : RequestHandler} (hcounted : h.Counted) (op : Op) : (h.step op).Counted := by
  cases op with
  | start r env =>
    rcases start_cases r env with hdirect | ⟨hdirect, hadded⟩ | ⟨hdirect, hadded⟩
    · rw [step, startRequest_direct hdirect]
      refine hcounted.started ?_ rfl
      rw [serials, List.map_append, List.append_assoc]
      exact List.perm_middle
    · rw [step, startRequest_added hdirect hadded]
      refine hcounted.started ?_ rfl
      rw [serials, List.map_append, List.append_assoc, ← List.append_assoc (List.map _ h.completed)]
      refine List.perm_middle.trans ?_
      rw [serials, List.append_assoc]
      exact .rfl
    · rw [step, startRequest_refused hdirect hadded]
      refine hcounted.started ?_ rfl
      rw [serials, List.map_append, ← List.append_assoc, ← List.append_assoc]
      rw [serials, ← List.append_assoc]
      exact List.perm_append_singleton _ _
  | receive easy ptr =>
    unfold Counted serials at hcounted ⊢
    rw [step, receive_serials]
    exact hcounted
  | done easy code =>
    rcases checkMultiInfo_cases h easy code with hsame | ⟨before, conn, after, -, hconns, hdone⟩
    · rwa [step, hsame]
    · rw [step, hdone]
      refine List.Perm.trans ?_ hcounted
      have hmoved : ((before ++ conn :: after).map (·.serial)).Perm (conn.serial :: (before ++ after).map (·.serial)) :=
        List.perm_middle.map _
      rw [serials, serials, hconns, List.map_append, List.append_assoc]
      exact List.Perm.append_left _ (hmoved.append_right _).symm

/-- A record of a request on its way is about the request of its number. -/
def TellsOf (requests : List Request) (conn : ConnInfo) : Prop :=
  ∃ r, requests[conn.serial]? = some r ∧ isDirect r.url = false ∧
    (∃ beyond, conn.transactionId = copied txnIdLen r.transactionId beyond) ∧ conn.response = conn.received.foldl writeCb []

/-- And so is what is reported: it is what the server answered, or what is made up for a url without one. -/
def ReportsOf (requests : List Request) (c : Completion) : Prop :=
  ∃ r, requests[c.serial]? = some r ∧
    ((isDirect r.url = true ∧ c.transactionId = r.transactionId ∧ c.response = directReply r.url) ∨
      (isDirect r.url = false ∧ (∃ beyond, c.transactionId = copied txnIdLen r.transactionId beyond) ∧
        c.response = c.received.foldl writeCb []))

structure Told (h : RequestHandler) : Prop where
  conns : ∀ conn ∈ h.conns, TellsOf h.requests conn
  completed : ∀ c ∈ h.completed, ReportsOf h.requests c

theorem getElem?_append_some {α : Type} {l l' : List α} {i : Nat} {a : α} (h : l[i]? = some a) : (l ++ l')[i]? = some a := by
  rw [List.getElem?_append_left (List.getElem?_eq_some_iff.mp h).1, h]

theorem TellsOf.append {requests : List Request} {conn : ConnInfo} (r : Request) (h : TellsOf requests conn) :
    TellsOf (requests ++ [r]) conn := by
  obtain ⟨r', hr', htold⟩ := h
  exact ⟨r', getElem?_append_some hr', htold⟩

theorem ReportsOf.append {requests : List Request} {c : Completion} (r : Request) (h : ReportsOf requests c) :
    ReportsOf (requests ++ [r]) c := by
  obtain ⟨r', hr', htold⟩ := h
  exact ⟨r', getElem?_append_some hr', htold⟩

theorem told_step {h : RequestHandler} (htold : h.Told) (op : Op) : (h.step op).Told := by
  cases op with
  | start r env =>
    have hlast : (h.requests ++ [r])[h.requests.length]? = some r := List.getElem?_concat_length
    have hconns : ∀ conn ∈ h.conns, TellsOf (h.requests ++ [r]) conn := fun conn hc => (htold.conns conn hc).append r
    have hcompleted : ∀ c ∈ h.completed, ReportsOf (h.requests ++ [r]) c := fun c hc => (htold.completed c hc).append r
    rcases start_cases r env with hdirect | ⟨hdirect, hadded⟩ | ⟨hdirect, hadded⟩
    · rw [step, startRequest_direct hdirect]
      refine ⟨hconns, fun c hc => ?_⟩
      rcases List.mem_append.mp hc with hc | hc
      · exact hcompleted c hc
      · obtain rfl := List.mem_singleton.mp hc
        exact ⟨r, hlast, Or.inl ⟨hdirect, rfl, rfl⟩⟩
    · rw [step, startRequest_added hdirect hadded]
      refine ⟨fun conn hc => ?_, hcompleted⟩
      rcases List.mem_append.mp hc with hc | hc
      · exact hconns conn hc
      · obtain rfl := List.mem_singleton.mp hc
        exact ⟨r, hlast, hdirect, ⟨_, rfl⟩, rfl⟩
    · rw [step, startRequest_refused hdirect hadded]
      exact ⟨hconns, hcompleted⟩
  | receive easy ptr =>
    refine ⟨fun conn hc => ?_, htold.completed⟩
    obtain ⟨old, hold, rfl⟩ := List.mem_map.mp hc
    obtain ⟨r, hr, hdirect, hid, hresponse⟩ := htold.conns old hold
    split
    · refine ⟨r, hr, hdirect, hid, ?_⟩
      rw [List.foldl_append, ← hresponse]
      rfl
    · exact ⟨r, hr, hdirect, hid, hresponse⟩
  | done easy code =>
    rcases checkMultiInfo_cases h easy code with hsame | ⟨before, conn, after, -, hconns, hdone⟩
    · rwa [step, hsame]
    · rw [step, hdone]
      refine ⟨fun c hc => htold.conns c ?_, fun c hc => ?_⟩
      · rw [hconns]
        exact List.mem_append.mpr ((List.mem_append.mp hc).imp id (List.mem_cons_of_mem _))
      · rcases List.mem_append.mp hc with hc | hc
        · exact htold.completed c hc
        · obtain rfl := List.mem_singleton.mp hc
          obtain ⟨r, hr, hdirect, hid, hresponse⟩ := htold.conns conn (by rw [hconns]; simp)
          exact ⟨r, hr, Or.inr ⟨hdirect, hid, hresponse⟩⟩

theorem cText_eq_self {s : Text} : cText s = s ↔ '\x00' ∉ s := by
  rw [cText, List.takeWhile_eq_self_iff]
  constructor
  · exact fun hall hnul => by simpa using hall _ hnul
  · rintro hnul c hc
    have hne : c ≠ '\x00' := fun heq => hnul (heq ▸ hc)
    simpa using hne

theorem cText_length_le (s : Text) : (cText s).length ≤ s.length := (List.takeWhile_sublist _).length_le

theorem copied_short {n : Nat} {s beyond : Text} (hnul : '\x00' ∉ s) (hlen : s.length < n) : copied n s beyond = s := by
  rw [copied, cText_eq_self.mpr hnul, if_pos hlen]

theorem ReportsOf.transactionId {requests : List Request} {c : Completion} (h : ReportsOf requests c) :
    ∃ r, requests[c.serial]? = some r ∧
      ('\x00' ∉ r.transactionId → r.transactionId.length < txnIdLen → c.transactionId = r.transactionId) := by
  obtain ⟨r, hr, ⟨-, hid, -⟩ | ⟨-, ⟨beyond, hid⟩, -⟩⟩ := h
  · exact ⟨r, hr, fun _ _ => hid⟩
  · exact ⟨r, hr, fun hnul hlen => hid.trans (copied_short hnul hlen)⟩

/-- The request that an operation starts -/
def Op.request : Op → Option Request
  | .start r _ => some r
  | _ => none

theorem requests_step (h : RequestHandler) (op : Op) : (h.step op).requests = h.requests ++ op.request.toList := by
  cases op with
  | start r env =>
    rcases start_cases r env with hdirect | ⟨hdirect, hadded⟩ | ⟨hdirect, hadded⟩
    · rw [step, startRequest_direct hdirect]; rfl
    · rw [step, startRequest_added hdirect hadded]; rfl
    · rw [step, startRequest_refused hdirect hadded]; rfl
  | receive easy ptr => exact (List.append_nil _).symm
  | done easy code =>
    rcases checkMultiInfo_cases h easy code with hsame | ⟨before, conn, after, -, -, hdone⟩
    · rw [step, hsame]; exact (List.append_nil _).symm
    · rw [step, hdone]; exact (List.append_nil _).symm

theorem requests_run (h : RequestHandler) (ops : List Op) :
    (Machine.run step h ops).requests = h.requests ++ ops.filterMap Op.request := by
  induction ops generalizing h with
  | nil => exact (List.append_nil _).symm
  | cons op ops ih =>
    rw [Machine.run_cons, ih, requests_step, List.append_assoc]
    cases hop : op.request with
    | none => rw [List.filterMap_cons_none hop]; rfl
    | some r => rw [List.filterMap_cons_some hop]; rfl

theorem counted_run (ops : List Op) : (Machine.run step init ops).Counted :=
  Machine.run_invariant (fun _ op h => counted_step h op) .rfl

theorem told_init : init.Told where
  conns _ h := nomatch h
  completed _ h := nomatch h

theorem told_run (ops : List Op) : (Machine.run step init ops).Told :=
  Machine.run_invariant (fun _ op h => told_step h op) told_init

/-- In every run each request that was started is reported once, or on its way, or lost by a refusal of libcurl; and what
    is reported of it names its own transaction, if the id fits its array. -/
theorem requests_reported_once (ops : List Op) :
    (Machine.run step init ops).serials.Perm (List.range (ops.filterMap Op.request).length) ∧
    ∀ c ∈ (Machine.run step init ops).completed, ∃ r, (ops.filterMap Op.request)[c.serial]? = some r ∧
      ('\x00' ∉ r.transactionId → r.transactionId.length < txnIdLen → c.transactionId = r.transactionId) := by
  have hrequests : (Machine.run step init ops).requests = ops.filterMap Op.request := requests_run init ops
  rw [← hrequests]
  exact ⟨counted_run ops, fun c hc => ((told_run ops).completed c hc).transactionId⟩

/-! ### What the servers answer -/

theorem writeCb_length (response ptr : Text) : (writeCb response ptr).length ≤ max response.length httpBodyLen := by
  unfold writeCb
  split
  · exact le_max_left _ _
  · rename_i hfits
    have hle := cText_length_le ptr
    rw [List.length_append]
    omega

theorem gathered_length (ptrs : List Text) (response : Text) :
    (ptrs.foldl writeCb response).length ≤ max response.length httpBodyLen := by
  induction ptrs generalizing response with
  | nil => exact le_max_left _ _
  | cons ptr ptrs ih =>
    have hptr := writeCb_length response ptr
    have hrest := ih (writeCb response ptr)
    rw [List.foldl_cons]
    omega

/-- When all pieces fit, each of them is taken up to its first NUL. -/
theorem gathered_fits {ptrs : List Text} {response : Text} (hfits : response.length + ptrs.flatten.length ≤ httpBodyLen) :
    ptrs.foldl writeCb response = response ++ (ptrs.map cText).flatten := by
  induction ptrs generalizing response with
  | nil => exact (List.append_nil _).symm
  | cons ptr ptrs ih =>
    rw [List.flatten_cons, List.length_append] at hfits
    have hle := cText_length_le ptr
    have hwrite : writeCb response ptr = response ++ cText ptr := if_neg (by omega)
    rw [List.foldl_cons, hwrite, ih (by rw [List.length_append]; omega), List.map_cons, List.flatten_cons, List.append_assoc]

theorem flatten_map_cText_length_le (ptrs : List Text) : ((ptrs.map cText).flatten).length ≤ ptrs.flatten.length := by
  induction ptrs with
  | nil => exact le_rfl
  | cons ptr ptrs ih =>
    have hle := cText_length_le ptr
    rw [List.map_cons, List.flatten_cons, List.flatten_cons, List.length_append, List.length_append]
    omega

theorem flatten_map_cText {ptrs : List Text} : (ptrs.map cText).flatten = ptrs.flatten ↔ '\x00' ∉ ptrs.flatten := by
  induction ptrs with
  | nil => simp
  | cons ptr ptrs ih =>
    rw [List.map_cons, List.flatten_cons, List.flatten_cons, List.mem_append, not_or, ← ih, ← cText_eq_self]
    constructor
    · intro heq
      have hle := cText_length_le ptr
      have hrest := flatten_map_cText_length_le ptrs
      have hlen := congrArg List.length heq
      rw [List.length_append, List.length_append] at hlen
      exact List.append_inj heq (by omega)
    · rintro ⟨hptr, hptrs⟩
      rw [hptr, hptrs]

/-- What a request gets is the whole body exactly when it has no NUL and fits. -/
theorem gathered_iff (ptrs : List Text) :
    ptrs.foldl writeCb [] = ptrs.flatten ↔ '\x00' ∉ ptrs.flatten ∧ ptrs.flatten.length ≤ httpBodyLen := by
  constructor
  · intro heq
    have hlen : ptrs.flatten.length ≤ httpBodyLen := by
      have hle := gathered_length ptrs []
      rwa [heq, List.length_nil, Nat.zero_max] at hle
    rw [gathered_fits (by rwa [List.length_nil, Nat.zero_add]), List.nil_append] at heq
    exact ⟨flatten_map_cText.mp heq, hlen⟩
  · rintro ⟨hnul, hlen⟩
    rw [gathered_fits (by rwa [List.length_nil, Nat.zero_add]), List.nil_append]
    exact flatten_map_cText.mpr hnul

/-- In every run what is reported of a request that a server was asked for is the body that the server sent, in whatever
    pieces it came, exactly when that has no NUL and at most 16384 characters; nothing tells the controller otherwise. -/
theorem responses_whole_iff (ops : List Op) : ∀ c ∈ (Machine.run step init ops).completed, ∃ r,
    (ops.filterMap Op.request)[c.serial]? = some r ∧ (isDirect r.url = false →
      (c.response = c.received.flatten ↔ '\x00' ∉ c.received.flatten ∧ c.received.flatten.length ≤ httpBodyLen)) := by
  intro c hc
  have hrequests : (Machine.run step init ops).requests = ops.filterMap Op.request := requests_run init ops
  obtain ⟨r, hr, hcases⟩ := (told_run ops).completed c hc
  refine ⟨r, hrequests ▸ hr, fun hdirect => ?_⟩
  rcases hcases with ⟨hdirect', -⟩ | ⟨-, -, hresponse⟩
  · exact absurd hdirect' (by simp [hdirect])
  · rw [hresponse]
    exact gathered_iff _

/-- A request whose answer comes in two pieces -/
def pieces : List Op := [.start ⟨['t'], ['G'], "http://a".toList, [], true⟩ ⟨[], [], [], true⟩, .receive 0 ['a', 'b'],
  .receive 0 ['c'], .done 0 200]

theorem responses_whole_iff_pieces : ∃ r, (pieces.filterMap Op.request)[0]? = some r ∧ (isDirect r.url = false →
    (['a', 'b', 'c'] = [['a', 'b'], ['c']].flatten ↔
      '\x00' ∉ [['a', 'b'], ['c']].flatten ∧ [['a', 'b'], ['c']].flatten.length ≤ httpBodyLen)) :=
  responses_whole_iff pieces ⟨0, ['t'], 200, ['a', 'b', 'c'], [['a', 'b'], ['c']]⟩ (by decide)

/-! ### What is sent -/

def post : Text := "POST".toList

section
variable {serial : Nat} {r : Request} {env : StartEnv} {o : Options}

theorem setOptions_post (hpost : r.httpMethod = post) :
    (setOptions serial r env o).post = some ⟨serial, (copied httpBodyLen r.body env.beyondBody).length⟩ := by
  have hpost' : r.httpMethod = "POST".toList := hpost
  simp only [setOptions, if_pos hpost']

/-- Without a POST of its own a request leaves the fields of the last one on the handle. -/
theorem setOptions_other (hpost : r.httpMethod ≠ post) : (setOptions serial r env o).post = o.post := by
  have hpost' : ¬ r.httpMethod = "POST".toList := hpost
  simp only [setOptions, if_neg hpost']
  split <;> rfl

end

/-- What the handles carry of the requests that were sent on them -/
structure Carried (h : RequestHandler) : Prop where
  fields : ∀ easy, easy ∉ h.lost.map (·.2) → ∀ f ∈ (h.options easy).post,
    ∃ s ∈ h.sent, s.serial = f.conn ∧ s.easy = easy ∧ s.httpMethod = post
  kept : ∀ s ∈ h.sent, s.httpMethod = post → (h.options s.easy).post.isSome = true
  settled : ∀ s ∈ h.sent, (∃ c ∈ h.completed, c.serial = s.serial) ∨
    ∃ conn ∈ h.conns, conn.serial = s.serial ∧ conn.easy = s.easy

theorem newOptions_kept {h : RequestHandler} (hcarried : h.Carried) (r : Request) (env : StartEnv) {s : Sent}
    (hs : s ∈ h.sent) (hpost : s.httpMethod = post) :
    (Function.update h.options h.pool.next (h.newOptions r env) s.easy).post.isSome = true := by
  by_cases heasy : s.easy = h.pool.next
  · rw [heasy, Function.update_self, newOptions]
    by_cases hown : r.httpMethod = post
    · rw [setOptions_post hown]; rfl
    · rw [setOptions_other hown, ← heasy]
      exact hcarried.kept s hs hpost
  · rw [Function.update_of_ne heasy]
    exact hcarried.kept s hs hpost

theorem carried_step {h : RequestHandler} (hsound : h.pool.Sound) (hcarried : h.Carried) (op : Op) : (h.step op).Carried := by
  cases op with
  | start r env =>
    have hnext : h.pool.next ∉ h.lost.map (·.2) := fun hmem => hsound.next_notMem (List.mem_append_right _ hmem)
    rcases start_cases r env with hdirect | ⟨hdirect, hadded⟩ | ⟨hdirect, hadded⟩
    · rw [step, startRequest_direct hdirect]
      refine ⟨hcarried.fields, hcarried.kept, fun s hs => ?_⟩
      exact (hcarried.settled s hs).imp (fun ⟨c, hc, heq⟩ => ⟨c, List.mem_append_left _ hc, heq⟩) id
    · rw [step, startRequest_added hdirect hadded]
      refine ⟨fun easy hlost f hf => ?_, fun s hs hpost => ?_, fun s hs => ?_⟩
      · have hold : f ∈ (h.options easy).post → ∃ s, s ∈ h.sent ∧ s.serial = f.conn ∧ s.easy = easy ∧ s.httpMethod = post :=
          hcarried.fields easy hlost f
        change f ∈ (Function.update h.options _ _ _).post at hf
        by_cases heasy : easy = h.pool.next
        · subst heasy
          rw [Function.update_self, newOptions] at hf
          by_cases hown : r.httpMethod = post
          · rw [setOptions_post hown] at hf
            obtain rfl := Option.some.inj hf
            exact ⟨_, List.mem_append_right _ (List.mem_singleton.mpr rfl), rfl, rfl, hown⟩
          · rw [setOptions_other hown] at hf
            obtain ⟨s, hs, hsf⟩ := hold hf
            exact ⟨s, List.mem_append_left _ hs, hsf⟩
        · rw [Function.update_of_ne heasy] at hf
          obtain ⟨s, hs, hsf⟩ := hold hf
          exact ⟨s, List.mem_append_left _ hs, hsf⟩
      · rcases List.mem_append.mp hs with hs | hs
        · exact newOptions_kept hcarried r env hs hpost
        · obtain rfl := List.mem_singleton.mp hs
          change (Function.update h.options _ _ _).post.isSome = true
          rw [Function.update_self, newOptions, setOptions_post hpost]
          rfl
      · rcases List.mem_append.mp hs with hs | hs
        · exact (hcarried.settled s hs).imp id fun ⟨conn, hconn, heq⟩ => ⟨conn, List.mem_append_left _ hconn, heq⟩
        · obtain rfl := List.mem_singleton.mp hs
          exact Or.inr ⟨_, List.mem_append_right _ (List.mem_singleton.mpr rfl), rfl, rfl⟩
    · rw [step, startRequest_refused hdirect hadded]
      refine ⟨fun easy hlost f hf => ?_, fun s hs hpost => newOptions_kept hcarried r env hs hpost, hcarried.settled⟩
      rw [List.map_append, List.mem_append, not_or] at hlost
      have heasy : easy ≠ h.pool.next := fun heq => hlost.2 (List.mem_singleton.mpr heq)
      change f ∈ (Function.update h.options _ _ _).post at hf
      rw [Function.update_of_ne heasy] at hf
      exact hcarried.fields easy hlost.1 f hf
  | receive easy ptr =>
    refine ⟨hcarried.fields, hcarried.kept, fun s hs => (hcarried.settled s hs).imp id ?_⟩
    rintro ⟨conn, hconn, hserial, heasy⟩
    refine ⟨_, List.mem_map_of_mem hconn, ?_⟩
    split <;> exact ⟨hserial, heasy⟩
  | done easy code =>
    rcases checkMultiInfo_cases h easy code with hsame | ⟨before, conn, after, rfl, hconns, hdone⟩
    · rwa [step, hsame]
    · rw [step, hdone]
      refine ⟨hcarried.fields, hcarried.kept, fun s hs => ?_⟩
      rcases hcarried.settled s hs with ⟨c, hc, heq⟩ | ⟨other, hother, heq⟩
      · exact Or.inl ⟨c, List.mem_append_left _ hc, heq⟩
      · rw [hconns] at hother
        rcases List.mem_append.mp hother with hb | ha
        · exact Or.inr ⟨other, List.mem_append_left _ hb, heq⟩
        · rcases List.mem_cons.mp ha with rfl | ha
          · exact Or.inl ⟨_, List.mem_append_right _ (List.mem_singleton.mpr rfl), heq.1⟩
          · exact Or.inr ⟨other, List.mem_append_right _ ha, heq⟩

theorem carried_init : init.Carried where
  fields _ _ _ h := nomatch h
  kept _ h := nomatch h
  settled _ h := nomatch h

theorem carried_run (ops : List Op) : (Machine.run step init ops).Carried := by
  have hboth : (Machine.run step init ops).pool.Sound ∧ (Machine.run step init ops).Carried :=
    Machine.run_invariant (I := fun h => h.pool.Sound ∧ h.Carried)
      (fun h op hI => ⟨(pool_moves h op).sound hI.1, carried_step hI.1 hI.2 op⟩) ⟨sound_init, carried_init⟩
  exact hboth.2

/-- After every run a request that is handed to libcurl leaves as a POST exactly when it asks for one or its handle has
    carried one before. In the second case it has the fields of a request that was already reported, and whose record is
    gone. -/
theorem posts_iff (ops : List Op) (r : Request) (env : StartEnv) (s : Sent)
    (hsent : (Machine.run step init (ops ++ [.start r env])).sent = (Machine.run step init ops).sent ++ [s]) :
    (s.options.post.isSome = true ↔ r.httpMethod = post ∨
      ∃ earlier ∈ (Machine.run step init ops).sent, earlier.easy = s.easy ∧ earlier.httpMethod = post) ∧
    (r.httpMethod ≠ post → ∀ f ∈ s.options.post, (∃ c ∈ (Machine.run step init ops).completed, c.serial = f.conn) ∧
      ∀ conn ∈ (Machine.run step init (ops ++ [.start r env])).conns, conn.serial ≠ f.conn) := by
  have hcarried := carried_run ops
  have hsound := pool_sound ops
  have hcounted := counted_run (ops ++ [.start r env])
  rw [Machine.run_append, Machine.run_cons, Machine.run_nil, step] at hsent hcounted ⊢
  rcases start_cases r env with hdirect | ⟨hdirect, hadded⟩ | ⟨hdirect, hadded⟩
  · rw [startRequest_direct hdirect] at hsent
    exact absurd (congrArg List.length hsent) (by simp)
  · rw [startRequest_added hdirect hadded] at hsent hcounted ⊢
    obtain rfl := List.singleton_inj.mp (List.append_cancel_left hsent)
    have hnext := hsound.next_notMem
    refine ⟨⟨fun hsome => ?_, ?_⟩, fun hother f hf => ?_⟩
    · by_cases hown : r.httpMethod = post
      · exact Or.inl hown
      · rw [newOptions, setOptions_other hown] at hsome
        obtain ⟨f, hf⟩ := Option.isSome_iff_exists.mp hsome
        obtain ⟨s, hs, -, heasy, hpost⟩ :=
          hcarried.fields _ (fun hmem => hnext (List.mem_append_right _ hmem)) f hf
        exact Or.inr ⟨s, hs, heasy, hpost⟩
    · rintro (hown | ⟨earlier, hearlier, heasy, hpost⟩)
      · rw [newOptions, setOptions_post hown]; rfl
      · have hkept := newOptions_kept hcarried r env hearlier hpost
        rwa [heasy, Function.update_self] at hkept
    · rw [newOptions, setOptions_other hother] at hf
      obtain ⟨s, hs, hserial, heasy, -⟩ :=
        hcarried.fields _ (fun hmem => hnext (List.mem_append_right _ hmem)) f hf
      -- The handle is free, so the request that it carried is not on its way.
      have hcompleted : ∃ c ∈ (Machine.run step init ops).completed, c.serial = f.conn := by
        rcases hcarried.settled s hs with ⟨c, hc, heq⟩ | ⟨conn, hconn, -, heq⟩
        · exact ⟨c, hc, heq.trans hserial⟩
        · exact absurd (List.mem_append_left _ (List.mem_map.mpr ⟨conn, hconn, heq.trans heasy⟩)) hnext
      refine ⟨hcompleted, fun conn hconn heq => ?_⟩
      obtain ⟨c, hc, hcs⟩ := hcompleted
      have hnodup := hcounted.nodup_iff.mpr List.nodup_range
      exact List.disjoint_of_nodup_append hnodup (List.mem_map.mpr ⟨c, hc, hcs⟩)
        (List.mem_append_left _ (List.mem_map.mpr ⟨conn, hconn, heq⟩))
  · rw [startRequest_refused hdirect hadded] at hsent
    exact absurd (congrArg List.length hsent) (by simp)

/-- A POST that is done, and three GETs on the other handles -/
def reuseOps : List Op :=
  let env : StartEnv := ⟨[], [], [], true⟩
  let get : Request := ⟨['t'], "GET".toList, "http://a".toList, [], true⟩
  [.start ⟨['t'], post, "http://a".toList, "sip".toList, true⟩ env, .done 0 200, .start get env, .start get env,
    .start get env]

/-- The next GET is sent as a POST of three characters that are gone. -/
theorem posts_iff_reused :
    (∃ earlier ∈ (Machine.run step init reuseOps).sent, earlier.easy = 0 ∧ earlier.httpMethod = post) ∧
      ∃ c ∈ (Machine.run step init reuseOps).completed, c.serial = 0 := by
  obtain ⟨hpost, hgone⟩ := posts_iff reuseOps ⟨['t'], "GET".toList, "http://a".toList, [], true⟩ ⟨[], [], [], true⟩
    ⟨4, 0, "GET".toList, ⟨"http://a".toList, true, some ⟨0, 3⟩, false⟩⟩ (by rfl)
  exact ⟨(hpost.mp rfl).resolve_left (by decide), (hgone (by decide) ⟨0, 3⟩ rfl).1⟩

end RequestHandler
end Drachtio.Http
