/-
  RemoteCall.Call.Ledger
  ──────────────────────
  **THE SLOTS OF ALL CALLS OF A POOL.**

  The pool and the callers share the slots; a slot is found by the number of
  its call.  The shape of the response is fixed when the call is issued.
-/
import RemoteCall.Call.Slot
import RemoteCall.Payload.Codec

namespace RemoteCall

/-- The number of a call in its pool; the first call has number one. -/
abbrev CallId := Nat

/-- A call as its observers know it: the shape of its response, and the slot for it. -/
structure Entry where
  shape : Payload.Shape
  slot : Slot shape.Value

/-- Whether a response can be read in the shape that is expected. -/
def Entry.deliver (entry : Entry) (payload : Bytes) : Outcome Unit :=
  (entry.slot.deliver (Payload.decode entry.shape) payload).2

/-- The entry after a response has been delivered. -/
def Entry.afterDelivery (payload : Bytes) (entry : Entry) : Entry :=
  ⟨entry.shape, (entry.slot.deliver (Payload.decode entry.shape) payload).1⟩

/-- The slots of the calls that have been issued. -/
structure Ledger where
  /-- The calls by number, the oldest first. -/
  entries : List (CallId × Entry) := []
  deriving Inhabited

namespace Ledger

/-! ## §1. Reading and changing entries. -/

/-- The entry of a call. -/
def get? (l : Ledger) (id : CallId) : Option Entry :=
  (l.entries.find? (·.1 == id)).map (·.2)

/-- Whether a call has an outcome. -/
def isFinished (l : Ledger) (id : CallId) : Bool :=
  match l.get? id with
  | some entry => entry.slot.isFinished
  | none => false

/-- Opens the slot of a new call. -/
def issue (l : Ledger) (id : CallId) (shape : Payload.Shape) : Ledger :=
  ⟨l.entries ++ [(id, ⟨shape, {}⟩)]⟩

/-- Changes the entry of a call. -/
def update (l : Ledger) (id : CallId) (f : Entry → Entry) : Ledger :=
  ⟨l.entries.map fun (i, entry) => if i = id then (i, f entry) else (i, entry)⟩

/-- Records a failure of a call, unless it has an outcome. -/
def fail (l : Ledger) (id : CallId) (e : Failure) : Ledger :=
  l.update id fun entry => ⟨entry.shape, entry.slot.fail e⟩

/-- Records a response for a call, if it can be read. -/
def deliver (l : Ledger) (id : CallId) (payload : Bytes) : Ledger × Outcome Unit :=
  match l.get? id with
  | none => (l, .ok ())
  | some entry => (l.update id (Entry.afterDelivery payload), entry.deliver payload)

/-- Cancels a call with a failure, unless it has an outcome; whether the pool has to be told. -/
def cancel (l : Ledger) (id : CallId) (e : Failure) : Ledger × Bool :=
  match l.get? id with
  | none => (l, false)
  | some entry =>
    (l.update id fun entry => ⟨entry.shape, (entry.slot.cancel e).1⟩, (entry.slot.cancel e).2.2)

/-- Records a failure of each of several calls. -/
def failAll (l : Ledger) (ids : List CallId) (e : Failure) : Ledger :=
  ids.foldl (fun l id => l.fail id e) l

/-! ## §2. What a change leaves alone. -/

/-- A change of one entry is seen under its number. -/
theorem get?_update_self (l : Ledger) (id : CallId) (f : Entry → Entry) :
    (l.update id f).get? id = (l.get? id).map f := by
  obtain ⟨entries⟩ := l
  simp only [get?, update]
  induction entries with
  | nil => rfl
  | cons e rest ih =>
    obtain ⟨i, entry⟩ := e
    by_cases h : i = id
    · simp [h]
    · have hne : (i == id) = false := by simpa using h
      simpa [h, hne] using ih

/-- A change of one entry is not seen under another number. -/
theorem get?_update_of_ne (l : Ledger) {id other : CallId} (h : other ≠ id) (f : Entry → Entry) :
    (l.update id f).get? other = l.get? other := by
  obtain ⟨entries⟩ := l
  simp only [get?, update]
  induction entries with
  | nil => rfl
  | cons e rest ih =>
    obtain ⟨i, entry⟩ := e
    by_cases hi : i = id
    · have hne : i ≠ other := fun heq => h (heq.symm.trans hi)
      simp only [List.map_cons, if_pos hi, List.find?_cons_of_neg, beq_iff_eq, hne,
        not_false_eq_true, ih]
    · by_cases ho : i = other
      · simp [ho, h]
      · simp only [List.map_cons, if_neg hi, List.find?_cons_of_neg, beq_iff_eq, ho,
          not_false_eq_true, ih]

/-- A call that is failed has an outcome. -/
theorem isFinished_fail (l : Ledger) (id : CallId) (e : Failure) :
    (l.fail id e).isFinished id = (l.get? id).isSome := by
  simp only [isFinished, fail, get?_update_self]
  cases h : l.get? id with
  | none => rfl
  | some entry => simp [Slot.fail, Slot.isFinished]

end Ledger

end RemoteCall
