/-
  RemoteCall.Proofs.Pool.OnePlace
  ───────────────────────────────
  **WHERE AN OPEN CALL IS.**

  For every run of a pool whose links are handed fewer than 2^64 call frames
  each: a call that the pool has taken up and that has no outcome is in exactly
  one place, once in the queue or once among the calls in flight of the
  connection for its own key, with the request, the deadline and the flag that
  it was issued with; and no call frame is handed to a writer for a call that
  has an outcome.

  Main statements:
    • `filter_held`                   — how often a call is held,
    • `unsettled_calls_are_held_once` — the whole.
-/
import RemoteCall.Proofs.Pool.Sending

namespace RemoteCall

/-! ## §1. Places. -/

/-- Where a connection holds a call. -/
inductive Place where
  /-- In the queue of the connection for a key. -/
  | waiting (key : ConnectionKey) (call : PendingCall)
  /-- In flight on the link of the connection for a key, under a number. -/
  | inFlight (key : ConnectionKey) (n : SequenceNumber) (call : PendingCall)
  deriving DecidableEq

namespace Place

/-- The key of the connection. -/
def key : Place → ConnectionKey
  | .waiting key _ | .inFlight key _ _ => key

/-- The call. -/
def call : Place → PendingCall
  | .waiting _ call | .inFlight _ _ call => call

end Place

/-- What is in flight on the link of a connection. -/
def Connection.sent (c : Connection) : List (SequenceNumber × PendingCall) :=
  match c.phase with
  | .connected live => live.inFlight
  | _ => []

/-- The places where a connection holds a call. -/
def Connection.places (c : Connection) (id : CallId) : List Place :=
  (c.sent.filter (·.2.id == id)).map (fun sent => .inFlight c.key sent.1 sent.2)
    ++ (c.waiting.filter (·.id == id)).map (.waiting c.key)

namespace Pool

/-- The places where a pool holds a call. -/
def places (p : Pool) (id : CallId) : List Place :=
  p.connections.flatMap (·.places id)

variable {config : PoolConfig} {history : List Moment} {p : Pool}

theorem places_connection (c : Connection) (id : CallId) :
    (c.places id).map (fun place => (place.key, place.call))
      = (c.calls.map (c.key, ·)).filter (·.2.id == id) := by
  have hflight : c.inFlight = c.sent.map (·.2) := by
    unfold Connection.inFlight Connection.sent
    cases c.phase <;> rfl
  unfold Connection.places Connection.calls
  rw [hflight, List.map_append, List.map_append, List.filter_append, List.map_map, List.map_map,
    List.map_map, List.filter_map, List.filter_map]
  rfl

/-- **Places are entries of what is held.** -/
theorem map_places (p : Pool) (id : CallId) :
    (p.places id).map (fun place => (place.key, place.call))
      = (held p.connections).filter (·.2.id == id) := by
  unfold places held
  rw [List.map_flatMap, List.filter_flatMap]
  exact List.flatMap_congr fun c _ => places_connection c id

/-- Among calls with distinct numbers, a number selects one. -/
theorem filter_eq_singleton {xs : List (ConnectionKey × PendingCall)}
    (h : (xs.map (·.2.id)).Nodup) {x : ConnectionKey × PendingCall} (hx : x ∈ xs) :
    xs.filter (·.2.id == x.2.id) = [x] := by
  obtain ⟨before, after, hsplit⟩ := List.append_of_mem hx
  rw [hsplit, List.map_append, List.map_cons, List.nodup_middle, List.nodup_cons,
    ← List.map_append] at h
  -- no other call has the number of `x`
  have hnone : ∀ ys : List (ConnectionKey × PendingCall), (∀ y ∈ ys, y ∈ before ++ after) →
      ys.filter (·.2.id == x.2.id) = [] := by
    intro ys hys
    rw [List.filter_eq_nil_iff]
    intro y hy hid
    exact h.1 (List.mem_map.mpr ⟨y, hys y hy, by simpa using hid⟩)
  rw [hsplit, List.filter_append, List.filter_cons_of_pos (by simp),
    hnone before fun y hy => List.mem_append_left _ hy,
    hnone after fun y hy => List.mem_append_right _ hy]
  rfl

/-- **An open call is held once**, as it was issued. -/
theorem Accounts.filter_held (h : Accounts history p) (hroom : HasRoom (effectsOf history))
    {x : ConnectionKey × PendingCall} (hx : x ∈ takenUp history)
    (hopen : p.ledger.isOpen x.2.id = true) :
    ∃ r, (held p.connections).filter (·.2.id == x.2.id) = [r] ∧ issued r = x := by
  -- whatever has this number is open
  have hselect : ∀ xs : List (ConnectionKey × PendingCall),
      (stillOpen p.ledger xs).filter (·.2.id == x.2.id) = xs.filter (·.2.id == x.2.id) := by
    intro xs
    unfold stillOpen
    rw [List.filter_filter]
    apply List.filter_congr
    intro y _
    cases hid : y.2.id == x.2.id with
    | false => rfl
    | true => rw [show y.2.id = x.2.id by simpa using hid, hopen]; rfl
  -- what is held and open under the number is what was taken up under it: `x` alone
  have hsame := (h.same.all hroom).filter (·.2.id == x.2.id)
  rw [hselect, filter_eq_singleton h.queue.takenUp_nodup hx, List.filter_map] at hsame
  obtain ⟨r, hr, heq⟩ := List.map_eq_singleton_iff.mp (List.perm_singleton.mp hsame)
  refine ⟨r, ?_, heq⟩
  rw [← hselect]
  exact hr

/-! ## §2. Runs. -/

/-- **No call is lost or doubled inside a pool**, and no call frame is handed to a writer for a call
that has an outcome. -/
theorem unsettled_calls_are_held_once (run : Run config history p)
    (hroom : HasRoom (effectsOf history)) :
    (∀ key call, (key, call) ∈ takenUp history → p.ledger.isFinished call.id = false →
      ∃ place, p.places call.id = [place] ∧ place.key = key ∧ place.call.id = call.id
        ∧ place.call.request = call.request ∧ place.call.deadline = call.deadline
        ∧ place.call.idempotent = call.idempotent)
      ∧ ∀ m ∈ history, ∀ link call frame taken, Effect.send link call frame taken ∈ m.effects →
        frame.kind = .call →
        m.after.ledger.isFinished call.id = false ∧ frame.payload = call.request := by
  constructor
  · intro key call htaken hopen
    have hopen' : p.ledger.isOpen call.id = true := Ledger.isOpen_iff.mpr hopen
    obtain ⟨r, hheld, hissued⟩ := run.accounts.filter_held hroom htaken hopen'
    -- what is held is held in a place
    rw [← map_places] at hheld
    obtain ⟨place, hplace, hr⟩ := List.map_eq_singleton_iff.mp hheld
    rw [← hr] at hissued
    obtain ⟨hkey, hcall⟩ := Prod.mk.inj hissued
    rw [← hcall]
    exact ⟨place, hcall ▸ hplace, hkey, rfl, rfl, rfl, rfl⟩
  · intro m hm link call frame taken hmem hkind
    obtain ⟨earlier, later, hsplit⟩ := List.append_of_mem hm
    obtain ⟨hrun, -⟩ := run.at_split hsplit
    have hcall : (Effect.send link call frame taken).isCall = true := by
      show (frame.kind == .call) = true
      rw [hkind]
      rfl
    -- a call that is sent is open, at whatever moment of the run
    obtain ⟨x, -, hopen, _, n, _, heq⟩ := hrun.accounts.of_mem_effects hmem hcall
    cases heq
    exact ⟨hopen, rfl⟩

section OneCall

/-- An agent that is at one address, on a machine that takes every frame. -/
def oneAgent : ConnectionKey := ⟨⟨"agent", by decide⟩, 1⟩

/-- A call to the agent. -/
def oneCall : PendingCall := ⟨1, [7], some 500, false, 0⟩

/-- The surroundings in which it is at the address. -/
def oneAddress : Surroundings := ⟨fun _ => [.unix ⟨"/a"⟩], fun _ _ => true, fun _ _ => 0.5⟩

/-- A call that is asked for, taken up and sent is in flight, and nowhere else. -/
theorem unsettled_calls_are_held_once_when_sent :
    ∃ (history : List Moment) (p : Pool), Run {} history p ∧ HasRoom (effectsOf history)
      ∧ (oneAgent, oneCall) ∈ takenUp history ∧ p.ledger.isFinished oneCall.id = false
      ∧ p.places oneCall.id = [.inFlight oneAgent 0 oneCall]
      ∧ ∃ place, p.places oneCall.id = [place] ∧ place.key = oneAgent
        ∧ place.call.request = oneCall.request := by
  have start : Run {} [] { config := {}, subscription := ⟨0⟩ } :=
    Run.start (show Pool.new {} {} = _ from rfl)
  have asked := (start.next (.issue .unit) trivial).next (.send (.call oneAgent oneCall))
    ⟨by decide, by decide, rfl⟩
  have sought := (asked.next (.look oneAddress 0 (.command (.call oneAgent oneCall)))
    ⟨rfl, rfl⟩).next (.advance oneAddress 0) trivial
  have attached := (sought.next (.report (.connected oneAgent 1 (.unix ⟨"/a"⟩) 9)) trivial).next
    (.look oneAddress 0 (.notice (.connected oneAgent 1 (.unix ⟨"/a"⟩) 9))) ⟨rfl, rfl⟩
  have sent := attached.next (.advance oneAddress 0) trivial
  refine ⟨_, _, sent, hasRoom_of_length_lt (by decide), ?_, ?_, ?_, ?_⟩
  · exact List.mem_singleton_self _
  · rfl
  · rfl
  · obtain ⟨place, hplace, hkey, -, hrequest, -⟩ :=
      (unsettled_calls_are_held_once sent (hasRoom_of_length_lt (by decide))).1 oneAgent oneCall
        (List.mem_singleton_self _) rfl
    exact ⟨place, hplace, hkey, hrequest⟩

end OneCall

end Pool

end RemoteCall
