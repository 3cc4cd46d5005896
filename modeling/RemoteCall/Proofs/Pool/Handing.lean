/-
  RemoteCall.Proofs.Pool.Handing
  ──────────────────────────────
  **WHAT THE FRAMES OF A LINK ARE FOR.**

  The writer of a link sees call frames and cancel frames.  What a call frame is
  for, it does not see: the call is sent under its number (`original`), or it has
  just been sent and this is a second frame with a number of its own
  (`duplicate`).

      original n, duplicate n+1, original n+2, …, cancel n, …

  The frames that a pool hands to a writer are listed here with what they are
  for.  Without it, they are the frames of the pool (`filter_effects`).

  Main statements:
    • `Live.effects_flush`  — sending, frame by frame,
    • `Live.numbers_sends`  — call frames are numbered one after the other,
    • `Connection.filter_advance`, `Moment.filter_effects` — nothing is left out,
    • `eq_letGo_of_isFrame` — what else hands over a frame.
-/
import RemoteCall.Proofs.Pool.Closing
import RemoteCall.Proofs.Pool.Draining

namespace RemoteCall

/-! ## §1. Frames, and what they are for. -/

/-- A frame that is handed to the writer of a link, and whether the writer takes it. -/
inductive Handed where
  /-- A call is sent under a number. -/
  | original (n : SequenceNumber) (call : PendingCall) (taken : Bool)
  /-- A call that has just been sent is sent again, under a number of its own. -/
  | duplicate (n : SequenceNumber) (call : PendingCall) (taken : Bool)
  /-- The agent is told that the call under a number has been given up. -/
  | cancel (n : SequenceNumber) (call : PendingCall) (taken : Bool)

namespace Handed

/-- The frame as the writer sees it. -/
def effect (link : LinkId) (interface : UInt32) : Handed → Effect
  | .original n call taken => .send link call (.call interface n call.request) taken
  | .duplicate n call taken => .send link call (.call interface n call.request) taken
  | .cancel n call taken => .send link call (.cancel interface n) taken

/-- The number that a call frame uses up. -/
def number? : Handed → Option Nat
  | .original n _ _ | .duplicate n _ _ => some n.toNat
  | .cancel _ _ _ => none

/-- The number of the call that a cancel frame names. -/
def canceled? : Handed → Option SequenceNumber
  | .cancel n _ _ => some n
  | .original _ _ _ | .duplicate _ _ _ => none

end Handed

/-- The numbers that call frames use up, in order. -/
def numbersOf (frames : List Handed) : List Nat := frames.filterMap (·.number?)

/-- The numbers that cancel frames name, in order. -/
def canceledIn (frames : List Handed) : List SequenceNumber := frames.filterMap (·.canceled?)

@[simp] theorem numbersOf_append (xs ys : List Handed) :
    numbersOf (xs ++ ys) = numbersOf xs ++ numbersOf ys :=
  List.filterMap_append

@[simp] theorem canceledIn_append (xs ys : List Handed) :
    canceledIn (xs ++ ys) = canceledIn xs ++ canceledIn ys :=
  List.filterMap_append

theorem mem_canceledIn {frames : List Handed} {n : SequenceNumber} {call : PendingCall}
    {taken : Bool} (h : .cancel n call taken ∈ frames) : n ∈ canceledIn frames :=
  List.mem_filterMap.mpr ⟨_, h, rfl⟩

namespace Effect

/-- Whether an effect hands a frame to a writer. -/
def isFrame : Effect → Bool
  | .send _ _ _ _ => true
  | _ => false

/-- Whether an effect hands a frame to the writer of a link. -/
def isOn (link : LinkId) : Effect → Bool
  | .send target _ _ _ => target == link
  | _ => false

/-- The cancel frame that is handed to the writer of a link. -/
def cancelOn? (link : LinkId) : Effect → Option Handed
  | .send target call frame taken =>
    if target = link ∧ frame.kind = .cancel then some (.cancel frame.sequence call taken) else none
  | _ => none

end Effect

theorem isOn_of_isFrame {effect : Effect} {link : LinkId} (h : effect.isFrame = false) :
    effect.isOn link = false := by
  cases effect with
  | send target call frame taken => cases h
  | _ => rfl

theorem filter_isOn_of_isFrame {effects : List Effect} {link : LinkId}
    (h : ∀ effect ∈ effects, effect.isFrame = false) : effects.filter (·.isOn link) = [] := by
  rw [List.filter_eq_nil_iff]
  intro effect hmem hon
  rw [isOn_of_isFrame (h effect hmem)] at hon
  cases hon

/-- A call frame is one that uses up a number. -/
theorem handedOut_map (link : LinkId) (interface : UInt32) (frames : List Handed) :
    handedOut link (frames.map (·.effect link interface)) = (numbersOf frames).length := by
  induction frames with
  | nil => rfl
  | cons first rest ih =>
    unfold handedOut numbersOf at ih ⊢
    rw [List.map_cons, List.countP_cons, ih]
    cases first <;> simp [Handed.effect, Handed.number?, Effect.isCallOn, RequestFrame.call,
      RequestFrame.cancel]

/-- Other frames do not count. -/
theorem handedOut_filter (link : LinkId) (effects : List Effect) :
    handedOut link (effects.filter (·.isOn link)) = handedOut link effects := by
  unfold handedOut
  rw [List.countP_filter]
  refine List.countP_congr fun effect _ => ?_
  rw [Bool.and_eq_true]
  refine ⟨fun h => h.1, fun h => ⟨h, ?_⟩⟩
  cases effect with
  | send target call frame taken => exact ((Bool.and_eq_true _ _).mp h).1
  | _ => cases h

/-! ## §2. Sending. -/

namespace Live

variable {env : Surroundings} {config : PoolConfig} {interface : UInt32} {ledger : Ledger}
  {live : Live} {call : PendingCall} {waiting : List PendingCall}

/-- The second frame of a call, if it is sent twice. -/
def again (live : Live) (env : Surroundings) (config : PoolConfig) (interface : UInt32)
    (call : PendingCall) : List Handed :=
  if env.duplicates config live.link live.next then
    let n := live.next.next
    [.duplicate n call (env.takes live.link (.call interface n call.request))]
  else []

/-- The frames that sending the waiting calls comes to. -/
def sends (env : Surroundings) (config : PoolConfig) (interface : UInt32) (ledger : Ledger)
    (live : Live) : List PendingCall → List Handed
  | [] => []
  | call :: rest =>
    if ledger.isFinished call.id then sends env config interface ledger live rest
    else if env.takes live.link (.call interface live.next call.request) then
      .original live.next call true :: (live.again env config interface call
        ++ sends env config interface ledger (live.transmit env config interface call).1 rest)
    else [.original live.next call false]

theorem sends_finished {rest : List PendingCall} (h : ledger.isFinished call.id = true) :
    live.sends env config interface ledger (call :: rest)
      = live.sends env config interface ledger rest := by
  rw [sends, if_pos h]

theorem sends_taken {rest : List PendingCall} (h : ledger.isFinished call.id = false)
    (htakes : env.takes live.link (.call interface live.next call.request) = true) :
    live.sends env config interface ledger (call :: rest)
      = .original live.next call true :: (live.again env config interface call
        ++ (live.transmit env config interface call).1.sends env config interface ledger rest) := by
  rw [sends, if_neg (by simp [h]), if_pos htakes]

theorem sends_refused {rest : List PendingCall} (h : ledger.isFinished call.id = false)
    (hrefuses : env.takes live.link (.call interface live.next call.request) = false) :
    live.sends env config interface ledger (call :: rest) = [.original live.next call false] := by
  rw [sends, if_neg (by simp [h]), if_neg (by simp [hrefuses])]

/-- One call is sent, perhaps twice. -/
theorem effects_transmit (config : PoolConfig)
    (htakes : env.takes live.link (.call interface live.next call.request) = true) :
    (live.transmit env config interface call).2
      = (Handed.original live.next call true :: live.again env config interface call).map
          (·.effect live.link interface) := by
  have hfirst : live.handOver env call (.call interface live.next call.request)
      = (Handed.original live.next call true).effect live.link interface := by
    unfold handOver
    rw [htakes]
    rfl
  unfold again
  cases hdup : env.duplicates config live.link live.next with
  | true =>
    rw [transmit_twice hdup, hfirst]
    rfl
  | false =>
    rw [transmit_once hdup, hfirst]
    rfl

/-- **The frames are those of the link**, one after the other. -/
theorem effects_flush (env : Surroundings) (config : PoolConfig) (interface : UInt32)
    (ledger : Ledger) (waiting : List PendingCall) (live : Live) :
    (live.flush env config interface ledger waiting).effects
      = (live.sends env config interface ledger waiting).map (·.effect live.link interface) := by
  induction waiting generalizing live with
  | nil => rfl
  | cons call rest ih =>
    cases hfin : ledger.isFinished call.id with
    | true =>
      rw [flush_finished hfin, sends_finished hfin]
      exact ih live
    | false =>
      cases htakes : env.takes live.link (.call interface live.next call.request) with
      | true =>
        rw [flush_taken hfin htakes, sends_taken hfin htakes]
        dsimp only
        rw [effects_transmit config htakes, ih, link_transmit, ← List.map_append]
        rfl
      | false =>
        rw [flush_refused hfin htakes, sends_refused hfin htakes]
        show [live.handOver env call _] = _
        unfold handOver
        rw [htakes]
        rfl

/-- Sending cancels nothing. -/
theorem canceledIn_sends (env : Surroundings) (config : PoolConfig) (interface : UInt32)
    (ledger : Ledger) (waiting : List PendingCall) (live : Live) :
    canceledIn (live.sends env config interface ledger waiting) = [] := by
  have hagain : ∀ (live : Live) (call : PendingCall),
      canceledIn (live.again env config interface call) = [] := by
    intro live call
    unfold again
    split <;> rfl
  induction waiting generalizing live with
  | nil => rfl
  | cons call rest ih =>
    cases hfin : ledger.isFinished call.id with
    | true =>
      rw [sends_finished hfin]
      exact ih live
    | false =>
      cases htakes : env.takes live.link (.call interface live.next call.request) with
      | true =>
        rw [sends_taken hfin htakes]
        show canceledIn (_ ++ _) = []
        rw [canceledIn_append, hagain, ih]
        rfl
      | false =>
        rw [sends_refused hfin htakes]
        rfl

/-- **A call that is newly in flight** has been sent under its number. -/
theorem inFlight_flush (env : Surroundings) (config : PoolConfig) (interface : UInt32)
    (ledger : Ledger) (waiting : List PendingCall) (live : Live)
    {x : SequenceNumber × PendingCall}
    (hx : x ∈ (live.flush env config interface ledger waiting).live.inFlight) :
    x ∈ live.inFlight
      ∨ ledger.isFinished x.2.id = false
        ∧ .original x.1 x.2 true ∈ live.sends env config interface ledger waiting := by
  induction waiting generalizing live with
  | nil => exact .inl hx
  | cons call rest ih =>
    cases hfin : ledger.isFinished call.id with
    | true =>
      rw [flush_finished hfin] at hx
      rw [sends_finished hfin]
      exact ih live hx
    | false =>
      cases htakes : env.takes live.link (.call interface live.next call.request) with
      | true =>
        rw [flush_taken hfin htakes] at hx
        rw [sends_taken hfin htakes]
        have hput : ∀ (l : Live), l.inFlight = live.inFlight →
            x ∈ (l.put live.next call).inFlight → x ∈ live.inFlight ∨ x = (live.next, call) := by
          intro l hl hmem
          rcases List.mem_append.mp hmem with hold | hnew
          · exact .inl (hl ▸ (List.mem_filter.mp hold).1)
          · exact .inr (List.mem_singleton.mp hnew)
        have hown : x ∈ (live.transmit env config interface call).1.inFlight →
            x ∈ live.inFlight ∨ x = (live.next, call) := by
          intro hmem
          cases hdup : env.duplicates config live.link live.next with
          | true =>
            rw [transmit_twice hdup] at hmem
            exact hput _ (inFlight_duplicate live.advance call) hmem
          | false =>
            rw [transmit_once hdup] at hmem
            exact hput _ rfl hmem
        rcases ih _ hx with hfirst | ⟨hopen, hlater⟩
        · refine (hown hfirst).imp_right ?_
          rintro rfl
          exact ⟨hfin, List.mem_cons_self⟩
        · exact .inr ⟨hopen, List.mem_cons_of_mem _ (List.mem_append_right _ hlater)⟩
      | false =>
        rw [flush_refused hfin htakes] at hx
        exact .inl hx

/-- One call uses up one number, or two. -/
theorem numbers_transmit (env : Surroundings) (config : PoolConfig) (interface : UInt32)
    (live : Live) (call : PendingCall)
    (hroom : live.next.toNat
      + (numbersOf (.original live.next call true :: live.again env config interface call)).length
        < 2 ^ 64) :
    numbersOf (.original live.next call true :: live.again env config interface call)
        = List.range' live.next.toNat (numbersOf
          (.original live.next call true :: live.again env config interface call)).length
      ∧ (live.transmit env config interface call).1.next.toNat
        = live.next.toNat + (numbersOf
          (.original live.next call true :: live.again env config interface call)).length := by
  unfold again at hroom ⊢
  cases hdup : env.duplicates config live.link live.next with
  | true =>
    rw [transmit_twice hdup]
    rw [hdup, if_pos rfl] at hroom
    replace hroom : live.next.toNat + 2 < 2 ^ 64 := hroom
    have hnext := SequenceNumber.toNat_next (n := live.next) (by omega)
    have hnext' := SequenceNumber.toNat_next (n := live.next.next) (by omega)
    have htwice : (live.advance.duplicate env interface call).1.next = live.next.next.next := by
      unfold duplicate
      dsimp only
      split <;> rfl
    rw [if_pos rfl]
    constructor
    · show [live.next.toNat, live.next.next.toNat] = [live.next.toNat, live.next.toNat + 1]
      rw [hnext]
    · show (live.advance.duplicate env interface call).1.next.toNat = live.next.toNat + 2
      rw [htwice]
      omega
  | false =>
    rw [transmit_once hdup]
    rw [hdup, if_neg Bool.false_ne_true] at hroom
    rw [if_neg Bool.false_ne_true]
    exact ⟨rfl, SequenceNumber.toNat_next hroom⟩

/-- **Call frames are numbered one after the other**, until the numbers run out. -/
theorem numbers_sends (env : Surroundings) (config : PoolConfig) (interface : UInt32)
    (ledger : Ledger) (waiting : List PendingCall) (live : Live)
    (hroom : live.next.toNat
      + (numbersOf (live.sends env config interface ledger waiting)).length < 2 ^ 64) :
    numbersOf (live.sends env config interface ledger waiting)
        = List.range' live.next.toNat
          (numbersOf (live.sends env config interface ledger waiting)).length
      ∧ (live.flush env config interface ledger waiting).live.next.toNat
        = live.next.toNat
          + (numbersOf (live.sends env config interface ledger waiting)).length := by
  induction waiting generalizing live with
  | nil => exact ⟨rfl, rfl⟩
  | cons call rest ih =>
    cases hfin : ledger.isFinished call.id with
    | true =>
      rw [sends_finished hfin] at hroom ⊢
      rw [flush_finished hfin]
      exact ih live hroom
    | false =>
      cases htakes : env.takes live.link (.call interface live.next call.request) with
      | true =>
        rw [sends_taken hfin htakes, ← List.cons_append, numbersOf_append,
          List.length_append] at hroom ⊢
        rw [flush_taken hfin htakes]
        -- the first call, and then the others
        obtain ⟨hfirst, hnext⟩ := numbers_transmit env config interface live call (by omega)
        obtain ⟨hrest, hlast⟩ := ih (live.transmit env config interface call).1 (by omega)
        constructor
        · rw [← List.range'_append_1, ← hfirst, ← hnext, ← hrest]
        · exact hlast.trans (by omega)
      | false =>
        rw [sends_refused hfin htakes] at hroom ⊢
        rw [flush_refused hfin htakes]
        exact ⟨rfl, SequenceNumber.toNat_next hroom⟩

/-- The cancel frames for the calls in flight that have an outcome. -/
def cancels (env : Surroundings) (interface : UInt32) (ledger : Ledger) (live : Live) :
    List Handed :=
  (live.settled ledger).map fun sent =>
    .cancel sent.1 sent.2 (env.takes live.link (.cancel interface sent.1))

/-- Cancel frames use up no numbers. -/
theorem numbers_cancels (env : Surroundings) (interface : UInt32) (ledger : Ledger) (live : Live) :
    numbersOf (live.cancels env interface ledger) = [] := by
  unfold numbersOf cancels
  rw [List.filterMap_map, List.filterMap_eq_nil_iff]
  exact fun _ _ => rfl

theorem canceledIn_cancels (env : Surroundings) (interface : UInt32) (ledger : Ledger)
    (live : Live) :
    canceledIn (live.cancels env interface ledger) = (live.settled ledger).map (·.1) := by
  unfold canceledIn cancels
  rw [List.filterMap_map]
  exact congrFun (List.filterMap_eq_map (f := Prod.fst)) _

end Live

/-! ## §3. One connection. -/

namespace Connection

variable {env : Surroundings} {config : PoolConfig} {now : Time} {c c' : Connection} {l : Ledger}
  {live : Live} {link : LinkId} {id : CallId} {sent : List Effect} {effect : Effect}

/-- The frames that a connection hands to the writer of a link when it does what is due: it cancels
the calls in flight that have an outcome, and sends those that wait. -/
def handed (env : Surroundings) (config : PoolConfig) (now : Time) (link : LinkId) (c : Connection)
    (ledger : Ledger) : List Handed :=
  match c.phase with
  | .connected live =>
    if live.link = link then
      let ledger := (c.expire env now ledger).ledger
      live.cancels env c.key.interface ledger
        ++ if live.draining then []
          else (live.forget ledger).sends env config c.key.interface ledger
            (ledger.unsettled c.waiting)
    else []
  | _ => []

theorem handed_of_connected (hphase : c.phase = .connected live) (env : Surroundings)
    (config : PoolConfig) (now : Time) (l : Ledger) :
    c.handed env config now live.link l
      = live.cancels env c.key.interface (c.expire env now l).ledger
        ++ if live.draining then []
          else (live.forget (c.expire env now l).ledger).sends env config c.key.interface
            (c.expire env now l).ledger ((c.expire env now l).ledger.unsettled c.waiting) := by
  unfold handed
  rw [hphase]
  exact if_pos rfl

/-- A connection hands frames to its own writer only. -/
theorem handed_of_other (h : ∀ live, c.phase = .connected live → live.link ≠ link)
    (env : Surroundings) (config : PoolConfig) (now : Time) (l : Ledger) :
    c.handed env config now link l = [] := by
  unfold handed
  split
  · next live hphase => exact if_neg (h live hphase)
  · rfl

theorem effects_expire_of_connected (hphase : c.phase = .connected live) (env : Surroundings)
    (now : Time) (l : Ledger) :
    (c.expire env now l).effects
      = (live.settled (c.expire env now l).ledger).map fun (n, call) =>
          live.handOver env call (.cancel c.key.interface n) := by
  rw [ledger_expire]
  unfold expire
  rw [hphase]

/-- What a connection with a link does when it does what is due. -/
theorem effects_advance_of_connected (hphase : c.phase = .connected live) (env : Surroundings)
    (config : PoolConfig) (now : Time) (l : Ledger) :
    (c.advance env config now l).effects
      = (c.handed env config now live.link l).map (·.effect live.link c.key.interface) := by
  rw [advance_eq, sought_of_connected hphase, handed_of_connected hphase,
    effects_expire_of_connected hphase, List.append_nil, List.map_append, Live.cancels,
    List.map_map]
  refine congrArg₂ (· ++ ·) rfl ?_
  dsimp only
  cases hdraining : live.draining with
  | true =>
    rw [flush_of_draining (show _ = Phase.connected (live.forget _) from rfl) hdraining]
    rfl
  | false =>
    rw [flush_of_connected (show _ = Phase.connected (live.forget _) from rfl) hdraining,
      if_neg Bool.false_ne_true]
    exact Live.effects_flush env config c.key.interface (c.expire env now l).ledger
      ((c.expire env now l).ledger.unsettled c.waiting) (live.forget (c.expire env now l).ledger)

/-- Without a link, no frame is handed over. -/
theorem isFrame_advance_of_live?_eq_none (h : c.live? = none)
    (hmem : effect ∈ (c.advance env config now l).effects) : effect.isFrame = false := by
  rw [advance_eq, flush_of_live?_eq_none (moves_sought h env config now l).2,
    List.append_nil] at hmem
  rcases List.mem_append.mp hmem with hexpire | hsought
  · unfold expire at hexpire
    dsimp only at hexpire
    split at hexpire
    · next live hphase =>
      rw [live?_of_phase hphase] at h
      cases h
    · exact absurd hexpire List.not_mem_nil
  · unfold sought seek at hsought
    dsimp only at hsought
    split at hsought
    · split at hsought
      · exact absurd hsought List.not_mem_nil
      · rw [List.mem_singleton.mp hsought]
        rfl
    · exact absurd hsought List.not_mem_nil

/-- **Nothing is left out.** -/
theorem filter_advance (env : Surroundings) (config : PoolConfig) (now : Time) (link : LinkId)
    (c : Connection) (l : Ledger) :
    (c.advance env config now l).effects.filter (·.isOn link)
      = (c.handed env config now link l).map (·.effect link c.key.interface) := by
  cases hlive? : c.live? with
  | none =>
    rw [handed_of_other fun live hphase => by rw [live?_of_phase hphase] at hlive?; cases hlive?]
    exact filter_isOn_of_isFrame fun effect hmem => isFrame_advance_of_live?_eq_none hlive? hmem
  | some live =>
    have hphase := phase_of_live? hlive?
    rw [effects_advance_of_connected hphase]
    by_cases hlink : live.link = link
    · rw [← hlink, List.filter_eq_self]
      intro effect hmem
      obtain ⟨frame, -, rfl⟩ := List.mem_map.mp hmem
      cases frame <;> exact beq_self_eq_true live.link
    · have hother : ∀ other, c.phase = .connected other → other.link ≠ link := by
        intro other hother
        rw [hphase] at hother
        cases hother
        exact hlink
      rw [handed_of_other hother]
      refine List.filter_eq_nil_iff.mpr fun effect hmem hon => hlink ?_
      obtain ⟨frame, -, rfl⟩ := List.mem_map.mp hmem
      cases frame <;> exact beq_iff_eq.mp hon

theorem isFrame_leave (hmem : effect ∈ c.leave) : effect.isFrame = false := by
  unfold leave at hmem
  split at hmem
  · rw [List.mem_singleton.mp hmem]
    rfl
  · rw [List.mem_singleton.mp hmem]
    rfl
  · exact absurd hmem List.not_mem_nil

theorem isFrame_lose {e : Failure} (hmem : effect ∈ (c.lose config e l).effects) :
    effect.isFrame = false :=
  isFrame_leave (effects_lose e l ▸ hmem)

theorem isFrame_respond {frame : ResponseFrame}
    (hmem : effect ∈ (c.respond config frame l).effects) : effect.isFrame = false := by
  have hresponded := responded config frame c l
  generalize c.respond config frame l = moved at *
  cases hresponded with
  | rejected => exact isFrame_lose hmem
  | _ => exact absurd hmem List.not_mem_nil

theorem isFrame_reconsider (hmem : effect ∈ (c.reconsider env config now l).effects) :
    effect.isFrame = false := by
  have hreconsidered := reconsidered env config now c l
  generalize c.reconsider env config now l = moved at *
  cases hreconsidered with
  | kept _ => exact absurd hmem List.not_mem_nil
  | withdrawn _ _ => exact isFrame_lose hmem
  | restarted _ => exact isFrame_leave hmem

end Connection

/-! ## §4. The whole pool. -/

namespace Pool

variable {config : PoolConfig} {history : List Moment} {p : Pool} {m : Moment} {event : Event}
  {key : ConnectionKey} {link : LinkId} {effect : Effect} {env : Surroundings} {now : Time}
  {cs : List Connection} {c : Connection}

theorem isFrame_dropNotice {first : Notice} (hmem : effect ∈ dropNotice first) :
    effect.isFrame = false := by
  unfold dropNotice at hmem
  split at hmem
  · rw [List.mem_singleton.mp hmem]
    rfl
  · exact absurd hmem List.not_mem_nil

theorem isFrame_notice {first : Notice} (hmem : effect ∈ (p.notice first).2) :
    effect.isFrame = false := by
  unfold notice at hmem
  split at hmem
  · next c _ =>
    split at hmem
    · have hattended := attended p c first
      generalize p.attend c first = stepped at *
      generalize c.paysForNotice p.config p.ledger first = paying at *
      cases hattended with
      | attached _ =>
        rw [List.mem_singleton.mp hmem]
        rfl
      | attemptFailed _ => exact Connection.isFrame_lose hmem
      | responded => exact Connection.isFrame_respond hmem
      | linkFailed _ => exact Connection.isFrame_lose hmem
      | dropped => exact isFrame_dropNotice hmem
    · exact isFrame_dropNotice hmem
  · exact isFrame_dropNotice hmem

theorem isFrame_teardown (hmem : effect ∈ p.teardown.2) : effect.isFrame = false := by
  rcases List.mem_append.mp hmem with habandoned | hdropped
  · replace habandoned : effect ∈ p.closeQueue.abandonAll.2 := habandoned
    rw [effects_abandonAll] at habandoned
    obtain ⟨c, -, hleave⟩ := List.mem_flatMap.mp habandoned
    exact Connection.isFrame_leave hleave
  · obtain ⟨_, -, hmem⟩ := List.mem_flatMap.mp hdropped
    exact isFrame_dropNotice hmem

/-- **Any other event that hands over a frame** lets go of a call. -/
theorem eq_letGo_of_isFrame (hmem : effect ∈ (p.after event).2) (hframe : effect.isFrame = true) :
    (∃ env now, event = .advance env now)
      ∨ ∃ env now id, event = .look env now (.command (.abort id)) := by
  have hno : effect.isFrame ≠ false := by
    rw [hframe]
    exact Bool.noConfusion
  cases event with
  | advance env now => exact .inl ⟨env, now, rfl⟩
  | look env now subject =>
    cases subject with
    | stop => exact absurd (isFrame_teardown hmem) hno
    | timer => exact absurd hmem List.not_mem_nil
    | notice first => exact absurd (isFrame_notice hmem) hno
    | directory directory =>
      obtain ⟨_, _, _, -, hmoved, -⟩ := of_mem_moveAll hmem
      exact absurd (Connection.isFrame_reconsider hmoved) hno
    | command first =>
      cases first with
      | abort id => exact .inr ⟨env, now, id, rfl⟩
      | acquire _ | release _ => exact absurd hmem List.not_mem_nil
      | call other call =>
        unfold Pool.after look command at hmem
        dsimp only at hmem
        split at hmem <;> exact absurd hmem List.not_mem_nil
  | _ => exact absurd hmem List.not_mem_nil

/-- **A call is let go of** by the first of the connections that holds it. -/
theorem cancelIn_cases (env : Surroundings) (id : CallId) (cs : List Connection) :
    cancelIn env id cs = (cs, [])
      ∨ ∃ before c after c' sent, cs = before ++ c :: after ∧ c.cancel? env id = some (c', sent)
        ∧ cancelIn env id cs = (before ++ c' :: after, sent) := by
  induction cs with
  | nil => exact .inl rfl
  | cons c rest ih =>
    unfold cancelIn
    split
    · next c' sent hcancel => exact .inr ⟨[], c, rest, c', sent, rfl, hcancel, rfl⟩
    · rcases ih with hnobody | ⟨before, d, after, d', sent, hsplit, hcancel, hcancelIn⟩
      · rw [hnobody]
        exact .inl rfl
      · rw [hcancelIn, hsplit]
        exact .inr ⟨c :: before, d, after, d', sent, rfl, hcancel, rfl⟩

/-- The frames that connections hand to the writer of a link when they do what is due, in turn. -/
def handedInTurn (env : Surroundings) (config : PoolConfig) (now : Time) (link : LinkId) :
    List Connection → Ledger → List Handed
  | [], _ => []
  | c :: rest, l =>
    c.handed env config now link l
      ++ handedInTurn env config now link rest (c.advance env config now l).ledger

/-- The frames that are handed to the writer of a link at one moment. -/
def Moment.handed (link : LinkId) (m : Moment) : List Handed :=
  match m.event with
  | .advance env now =>
    handedInTurn env m.before.config now link m.before.connections m.before.ledger
  | _ => m.effects.filterMap (·.cancelOn? link)

/-- All frames that are handed to the writer of a link, in order. -/
def handedOn (link : LinkId) (history : List Moment) : List Handed :=
  history.flatMap (·.handed link)

@[simp] theorem handedOn_concat (link : LinkId) (history : List Moment) (m : Moment) :
    handedOn link (history ++ [m]) = handedOn link history ++ m.handed link := by
  simp [handedOn]

/-- Only the connection for a key has the link. -/
def Owns (key : ConnectionKey) (link : LinkId) (cs : List Connection) : Prop :=
  ∀ c ∈ cs, ∀ live, c.phase = .connected live → live.link = link → c.key = key

theorem filter_moveAll (env : Surroundings) (config : PoolConfig) (now : Time)
    (h : Owns key link cs) (l : Ledger) :
    (moveAll (Connection.advance env config now) cs l).2.2.filter (·.isOn link)
      = (handedInTurn env config now link cs l).map (·.effect link key.interface) := by
  induction cs generalizing l with
  | nil => rfl
  | cons c rest ih =>
    rw [moveAll_cons, handedInTurn, List.map_append,
      ← ih fun d hd => h d (List.mem_cons_of_mem _ hd)]
    dsimp only
    rw [List.filter_append, c.filter_advance env config now link]
    refine congrArg₂ (· ++ ·) ?_ rfl
    -- the connection has the link, and so it is the one for the key, or it hands over nothing
    by_cases hlink : ∃ live, c.phase = .connected live ∧ live.link = link
    · obtain ⟨live, hphase, hlink⟩ := hlink
      rw [h c List.mem_cons_self live hphase hlink]
    · rw [c.handed_of_other fun live hphase heq => hlink ⟨live, hphase, heq⟩]
      rfl

theorem handedInTurn_of_others (h : ∀ c ∈ cs, ∀ live, c.phase = .connected live → live.link ≠ link)
    (env : Surroundings) (config : PoolConfig) (now : Time) (l : Ledger) :
    handedInTurn env config now link cs l = [] := by
  induction cs generalizing l with
  | nil => rfl
  | cons c rest ih =>
    show _ ++ _ = []
    rw [c.handed_of_other (h c List.mem_cons_self), ih fun d hd => h d (List.mem_cons_of_mem _ hd)]
    rfl

theorem handedInTurn_append (env : Surroundings) (config : PoolConfig) (now : Time)
    (link : LinkId) (before after : List Connection) (l : Ledger) :
    handedInTurn env config now link (before ++ after) l
      = handedInTurn env config now link before l
        ++ handedInTurn env config now link after
          (moveAll (Connection.advance env config now) before l).2.1 := by
  induction before generalizing l with
  | nil => rfl
  | cons c rest ih =>
    rw [List.cons_append, handedInTurn, handedInTurn, ih, List.append_assoc]
    rfl

/-- In their turns, only the connection that has the link hands anything to its writer. -/
theorem Owns.handedInTurn (hkeys : (p.connections.map (·.key)).Nodup)
    (h : Owns c.key link p.connections) (hc : c ∈ p.connections) (env : Surroundings) (now : Time) :
    ∃ l, InTurn (Connection.advance env p.config now) p c l
      ∧ Pool.handedInTurn env p.config now link p.connections p.ledger
        = c.handed env p.config now link l := by
  obtain ⟨before, after, hsplit⟩ := List.append_of_mem hc
  refine ⟨_, ⟨before, after, hsplit, rfl⟩, ?_⟩
  have hothers : ∀ d ∈ before ++ after, ∀ live, d.phase = .connected live → live.link ≠ link := by
    intro d hd live hphase hlink
    have hmem : d ∈ p.connections := by
      rw [hsplit]
      rcases List.mem_append.mp hd with hbefore | hafter
      · exact List.mem_append_left _ hbefore
      · exact List.mem_append_right _ (List.mem_cons_of_mem _ hafter)
    rw [hsplit, List.map_append, List.map_cons, List.nodup_middle, List.nodup_cons,
      ← List.map_append] at hkeys
    exact hkeys.1 (h d hmem live hphase hlink ▸ List.mem_map_of_mem hd)
  rw [hsplit, handedInTurn_append,
    handedInTurn_of_others fun d hd => hothers d (List.mem_append_left _ hd)]
  show [] ++ (_ ++ _) = _
  rw [handedInTurn_of_others fun d hd => hothers d (List.mem_append_right _ hd), List.nil_append,
    List.append_nil]

/-- **Letting go of a call** hands over one cancel frame, or none. -/
theorem effects_cancelIn (env : Surroundings) (id : CallId) (cs : List Connection) :
    (cancelIn env id cs).2 = []
      ∨ ∃ c ∈ cs, ∃ live n call, c.phase = .connected live ∧ (n, call) ∈ live.inFlight
        ∧ call.id = id
        ∧ (cancelIn env id cs).2 = [live.handOver env call (.cancel c.key.interface n)] := by
  rcases cancelIn_cases env id cs with hnobody | ⟨before, c, after, c', sent, rfl, hcancel, heq⟩
  · exact .inl (by rw [hnobody])
  · rw [heq]
    cases Connection.letGo hcancel with
    | waiting => exact .inl rfl
    | inFlight hphase hmem hid =>
      exact .inr ⟨c, List.mem_append_right _ List.mem_cons_self, _, _, _, hphase, hmem, hid, rfl⟩

/-- Nothing is handed over unless what is due is done, or a call is let go of. -/
theorem Moment.handed_eq_nil (hadvance : ∀ env now, m.event ≠ .advance env now)
    (habort : ∀ env now id, m.event ≠ .look env now (.command (.abort id))) (link : LinkId) :
    m.handed link = [] ∧ m.effects.filter (·.isOn link) = [] := by
  have hnone : ∀ effect ∈ m.effects, effect.isFrame = false := by
    intro effect hmem
    rw [← Bool.not_eq_true]
    intro hframe
    rcases eq_letGo_of_isFrame hmem hframe with ⟨env, now, heq⟩ | ⟨env, now, id, heq⟩
    · exact hadvance env now heq
    · exact habort env now id heq
  refine ⟨?_, filter_isOn_of_isFrame hnone⟩
  unfold handed
  split
  · next env now heq => exact absurd heq (hadvance env now)
  · refine List.filterMap_eq_nil_iff.mpr fun effect hmem => ?_
    have hframe := hnone effect hmem
    cases effect with
    | send target call frame taken => cases hframe
    | _ => rfl

/-- The frame that is handed over when a call is let go of. -/
theorem cancelOn?_handOver (live : Live) (env : Surroundings) (call : PendingCall)
    (interface : UInt32) (n : SequenceNumber) :
    (live.handOver env call (.cancel interface n)).cancelOn? live.link
      = some (.cancel n call (env.takes live.link (.cancel interface n))) :=
  if_pos ⟨rfl, rfl⟩

theorem cancelOn?_of_ne {live : Live} (h : live.link ≠ link) (env : Surroundings)
    (call : PendingCall) (frame : RequestFrame) :
    (live.handOver env call frame).cancelOn? link = none :=
  if_neg fun hboth => h hboth.1

/-- **Nothing is left out.** -/
theorem Moment.filter_effects (h : Owns key link m.before.connections) :
    m.effects.filter (·.isOn link) = (m.handed link).map (·.effect link key.interface) := by
  have hsilent : (∀ env now, m.event ≠ .advance env now) →
      (∀ env now id, m.event ≠ .look env now (.command (.abort id))) →
      m.effects.filter (·.isOn link) = (m.handed link).map (·.effect link key.interface) := by
    intro hadvance habort
    obtain ⟨hhanded, heffects⟩ := m.handed_eq_nil hadvance habort link
    rw [hhanded, heffects]
    rfl
  obtain ⟨p, event⟩ := m
  cases event with
  | advance env now =>
    show ((moveAll (Connection.advance env p.config now) p.connections p.ledger).2.2
      ++ _).filter _ = _
    rw [List.filter_append, filter_moveAll env p.config now h]
    refine (congrArg₂ (· ++ ·) rfl (filter_isOn_of_isFrame fun effect hmem => ?_)).trans
      (List.append_nil _)
    obtain ⟨c, -, hleave⟩ := List.mem_flatMap.mp hmem
    exact Connection.isFrame_leave hleave
  | look env now subject =>
    cases subject with
    | command first =>
      cases first with
      | abort id =>
        show (cancelIn env id p.connections).2.filter _
          = ((cancelIn env id p.connections).2.filterMap _).map _
        rcases effects_cancelIn env id p.connections with
          hnone | ⟨c, hc, live, n, call, hphase, -, -, hsent⟩
        · rw [hnone]
          rfl
        · rw [hsent]
          by_cases hlink : live.link = link
          · subst hlink
            rw [List.filterMap_cons_some (cancelOn?_handOver live env call c.key.interface n),
              ← h c hc live hphase rfl]
            exact List.filter_cons_of_pos (beq_self_eq_true live.link)
          · rw [List.filterMap_cons_none (cancelOn?_of_ne hlink env call _)]
            exact List.filter_cons_of_neg (fun hon => hlink (beq_iff_eq.mp hon))
      | _ => exact hsilent nofun nofun
    | _ => exact hsilent nofun nofun
  | _ => exact hsilent nofun nofun

end Pool

end RemoteCall
