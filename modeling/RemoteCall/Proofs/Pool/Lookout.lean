/-
  RemoteCall.Proofs.Pool.Lookout
  ──────────────────────────────
  **A POOL AND ITS DIRECTORY, ACCESS BY ACCESS.**

  Left alone, the accesses of a pool add up to `Pool.turn?`, and those of a
  change to the change of the directory.  So the machine of `Pool.Lookout` is
  the pool and its directory, taken apart into accesses.

      resting ──→ told ──→ reconsidering ──→ advancing ──→ resting
         └───────────────────────────────────────┘

  Main statements:
    • `turn_alone`, `change_alone` — one party alone,
    • `Lookout.owns`               — what one access of the pool may do.
-/
import RemoteCall.Pool.Lookout
import RemoteCall.Proofs.Pool.Keeping

namespace RemoteCall

/-! ## §1. Changes of a directory. -/

namespace Directory

variable {d : Directory} {change : Change} {name : AgentName}

/-- Only the entry of the agent is changed. -/
theorem peers_alter_of_ne (h : change.agent ≠ name) :
    (d.alter change).1.peers name = d.peers name := by
  have hfilter : ∀ other, other ≠ name →
      (d.entries.filter (·.1 != other)).find? (·.1 == name) = d.entries.find? (·.1 == name) := by
    intro other hother
    rw [List.find?_filter]
    refine congrArg (d.entries.find? ·) (funext fun entry => ?_)
    by_cases heq : entry.1 = name
    · simp [heq, Ne.symm hother]
    · simp [heq]
  have henter : ∀ other peers, other ≠ name → (d.enter other peers).peers name = d.peers name := by
    intro other peers hother
    unfold Directory.peers enter
    rw [List.find?_cons_of_neg (by simpa using hother), hfilter other hother]
  cases change with
  | register other peer => exact henter other _ h
  | set other peers => exact henter other peers h
  | remove other =>
    unfold alter
    dsimp only
    split
    · unfold Directory.peers strike
      rw [hfilter other h]
    · rfl

@[simp] theorem generation_alter : (d.alter change).1.generation = d.generation := by
  cases change with
  | register | set => rfl
  | remove other =>
    unfold alter
    dsimp only
    split <;> rfl

/-- A change that is not announced changes nothing. -/
theorem alter_of_silent (h : (d.alter change).2 = false) : (d.alter change).1 = d := by
  cases change with
  | register | set => cases h
  | remove other =>
    unfold alter at h ⊢
    dsimp only at h ⊢
    split at h
    · cases h
    · next hunknown => rw [if_neg hunknown]

/-- The two accesses add up to the change. -/
theorem change_eq (d : Directory) (change : Change) :
    d.change change = if (d.alter change).2 then (d.alter change).1.announce else d := by
  cases change with
  | register | set => rfl
  | remove other =>
    unfold Directory.change remove alter
    dsimp only
    split <;> rfl

end Directory

namespace Pool

/-! ## §2. One party alone. -/

variable {p : Pool} {x y z : Lookout} {env : Surroundings} {now : Time} {sent more : List Effect}

namespace Lookout

theorem after_cons (x : Lookout) (act : Act) (rest : List Act) :
    x.after (act :: rest)
      = (((x.act act).1.after rest).1, (x.act act).2 ++ ((x.act act).1.after rest).2) := rfl

/-- From `x` the pool comes to `y` by accesses of its own. -/
def Alone (env : Surroundings) (now : Time) (x : Lookout) (effects : List Effect) (y : Lookout) :
    Prop :=
  ∃ n, x.after (List.replicate n (.own env now)) = (y, effects)

theorem Alone.refl (x : Lookout) : Alone env now x [] x :=
  ⟨0, rfl⟩

theorem Alone.step (hown : x.own env now = (y, sent)) (h : Alone env now y more z) :
    Alone env now x (sent ++ more) z := by
  obtain ⟨n, hn⟩ := h
  refine ⟨n + 1, ?_⟩
  show (((x.own env now).1.after (List.replicate n (.own env now))).1,
    (x.own env now).2 ++ ((x.own env now).1.after (List.replicate n (.own env now))).2) = _
  rw [hown, hn]

/-- An access that the outside does not notice. -/
theorem Alone.quiet (hown : x.own env now = (y, [])) (h : Alone env now y more z) :
    Alone env now x more z := by
  have hstep := Alone.step hown h
  exact hstep

/-- A pass over the connections that are left, one after the other. -/
theorem Alone.pass (p : Pool) (directory : Directory) (changes : List Directory.Change)
    (f : Connection → Ledger → Moved) (stage : Nat → Stage) (done todo : List Connection)
    (hown : ∀ (q : Pool) (n : Nat) (c : Connection), q.config = p.config →
      q.connections[n]? = some c →
        own env now { pool := q, directory, changes, stage := stage n }
          = ({ pool := q.place n (f c q.ledger), directory, changes, stage := stage (n + 1) },
              (f c q.ledger).effects))
    (h : Alone env now
      { pool :=
          { p with
            connections := done ++ (moveAll f todo p.ledger).1
            ledger := (moveAll f todo p.ledger).2.1 }
        directory, changes, stage := stage (done.length + todo.length) } more z) :
    Alone env now
      { pool := { p with connections := done ++ todo }, directory, changes
        stage := stage done.length }
      ((moveAll f todo p.ledger).2.2 ++ more) z := by
  induction todo generalizing p done with
  | nil => exact h
  | cons c rest ih =>
    have hfirst := hown { p with connections := done ++ c :: rest } done.length c rfl
      (by rw [List.getElem?_append_right (Nat.le_refl _), Nat.sub_self]; rfl)
    have hplace : ({ p with connections := done ++ c :: rest } : Pool).place done.length
          (f c p.ledger)
        = { p with
            connections := (done ++ [(f c p.ledger).connection]) ++ rest
            ledger := (f c p.ledger).ledger } := by
      unfold place
      dsimp only
      rw [List.set_append_right _ _ (Nat.le_refl _), Nat.sub_self, List.append_assoc]
      rfl
    dsimp only at hfirst
    rw [hplace] at hfirst
    rw [moveAll_cons] at h ⊢
    dsimp only at h ⊢
    rw [List.append_assoc]
    refine Alone.step hfirst ?_
    have hlength : done.length + 1 = (done ++ [(f c p.ledger).connection]).length := by
      rw [List.length_append, List.length_singleton]
    rw [hlength]
    refine ih { p with ledger := (f c p.ledger).ledger } _ hown ?_
    rw [List.length_append, List.length_singleton, Nat.add_assoc, Nat.add_comm 1,
      List.append_assoc]
    exact h

end Lookout

theorem length_moveAll (f : Connection → Ledger → Moved) (cs : List Connection) (l : Ledger) :
    (moveAll f cs l).1.length = cs.length := by
  induction cs generalizing l with
  | nil => rfl
  | cons c rest ih => exact congrArg (· + 1) (ih _)

variable {directory : Directory} {changes : List Directory.Change}

/-- The pool does whatever is due. -/
theorem advance_alone (p : Pool) (directory : Directory) (changes : List Directory.Change)
    (env : Surroundings) (now : Time) :
    Lookout.Alone env now { pool := p, directory, changes, stage := .advancing 0 }
      (p.advance { env with lookup := directory.peers } now).2
      { pool := (p.advance { env with lookup := directory.peers } now).1, directory, changes } := by
  generalize henv : { env with lookup := directory.peers } = around
  have hend : ∀ q : Pool, Lookout.Alone env now
      { pool := q, directory, changes, stage := .advancing q.connections.length }
      ((q.shed now).2 ++ []) { pool := (q.shed now).1, directory, changes } := by
    intro q
    refine .step ?_ (.refl _)
    unfold Lookout.own
    dsimp only
    rw [List.getElem?_eq_none (Nat.le_refl _)]
  have hpass := Lookout.Alone.pass p directory changes (Connection.advance around p.config now)
    .advancing [] p.connections (fun q n c hconfig hc => by
      unfold Lookout.own
      dsimp only
      rw [hc, hconfig, ← henv]
      rfl) (by
      rw [List.length_nil, Nat.zero_add, List.nil_append,
        ← length_moveAll (Connection.advance around p.config now) p.connections p.ledger]
      exact hend _)
  rw [List.append_nil] at hpass
  exact hpass

/-- The pool looks at a change of the directory. -/
theorem directoryChanged_alone (p : Pool) (directory : Directory)
    (changes : List Directory.Change) (env : Surroundings) (now : Time) (h : Lookout.Alone env now
      { pool := (p.directoryChanged { env with lookup := directory.peers } now directory).1
        directory, changes, stage := .advancing 0 } more z) :
    Lookout.Alone env now { pool := p, directory, changes, stage := .told }
      ((p.directoryChanged { env with lookup := directory.peers } now directory).2 ++ more) z := by
  generalize henv : { env with lookup := directory.peers } = around at h ⊢
  have hend : ∀ q : Pool, Lookout.own env now
      { pool := q, directory, changes, stage := .reconsidering q.connections.length }
        = ({ pool := q, directory, changes, stage := .advancing 0 }, []) := by
    intro q
    unfold Lookout.own
    dsimp only
    rw [List.getElem?_eq_none (Nat.le_refl _)]
  have hpass := Lookout.Alone.pass (p.see directory) directory changes
    (Connection.reconsider around p.config now) .reconsidering [] p.connections
    (fun q n c hconfig hc => by
      unfold Lookout.own
      dsimp only
      rw [hc, hconfig, ← henv]
      rfl) (by
      rw [List.length_nil, Nat.zero_add, List.nil_append,
        ← length_moveAll (Connection.reconsider around p.config now) p.connections p.ledger]
      exact .quiet (hend _) h)
  exact .quiet rfl hpass

theorem eq_of_subject? {other : Directory}
    (h : p.subject? now directory = some (.directory other)) : other = directory := by
  unfold subject? at h
  split at h
  · cases h
  · split at h
    · cases h
    · split at h
      · cases h
      · cases h
      · split at h
        · cases h
          rfl
        · split at h <;> cases h

/-- **Left alone, a pool does in its turn what `Pool.turn?` says.** -/
theorem turn_alone {stepped : Stepped}
    (h : p.turn? { env with lookup := directory.peers } now directory = some stepped)
    (changes : List Directory.Change) :
    Lookout.Alone env now { pool := p, directory, changes } stepped.2
      { pool := stepped.1, directory, changes } := by
  obtain ⟨subject, hsubject, rfl⟩ := Option.map_eq_some_iff.mp h
  have hadvance := advance_alone (p.look { env with lookup := directory.peers } now subject).1
    directory changes env now
  have hlook : (∀ other, subject ≠ .directory other) →
      Lookout.own env now { pool := p, directory, changes }
        = ({ pool := (p.look { env with lookup := directory.peers } now subject).1
             directory, changes, stage := .advancing 0 },
            (p.look { env with lookup := directory.peers } now subject).2) := by
    intro hother
    unfold Lookout.own
    dsimp only
    rw [hsubject]
    cases subject with
    | directory other => exact absurd rfl (hother other)
    | _ => rfl
  cases subject with
  | directory other =>
    obtain rfl := eq_of_subject? hsubject
    have htold : Lookout.own env now { pool := p, directory := other, changes }
        = ({ pool := p.see other, directory := other, changes, stage := .told }, []) := by
      unfold Lookout.own
      dsimp only
      rw [hsubject]
    exact .quiet htold (directoryChanged_alone (p.see other) other changes env now hadvance)
  | stop | command first | notice first | timer => exact .step (hlook (fun _ => nofun)) hadvance

/-- **Left alone, a change is a change.** -/
theorem change_alone (x : Lookout) (change : Directory.Change) :
    (x.after [.change change, .announce x.changes.length]).1
      = { x with directory := x.directory.change change } := by
  have hentered : (x.act (.change change)).1
      = { x with
          directory := (x.directory.alter change).1
          changes :=
            if (x.directory.alter change).2 then x.changes ++ [change] else x.changes } := rfl
  rw [Lookout.after_cons, hentered, Directory.change_eq]
  show (Lookout.act _ (.announce x.changes.length)).1 = _
  unfold Lookout.act
  dsimp only
  cases howed : (x.directory.alter change).2 with
  | true =>
    rw [if_pos rfl, if_pos rfl, List.getElem?_append_right (Nat.le_refl _), Nat.sub_self,
      List.eraseIdx_append_of_length_le (Nat.le_refl _), Nat.sub_self]
    dsimp only [List.getElem?_cons_zero, List.eraseIdx_cons_zero]
    rw [List.append_nil]
  | false =>
    rw [if_neg Bool.false_ne_true, if_neg Bool.false_ne_true, Directory.alter_of_silent howed,
      List.getElem?_eq_none (Nat.le_refl _)]

/-! ## §3. One access. -/

/-- Whether the pool is about to reconsider its connections, or does so. -/
def Stage.reconsiders : Stage → Bool
  | .told | .reconsidering _ => true
  | _ => false

/-- Whether the connection at the place is still to be reconsidered in this turn. -/
def Stage.isAhead (i : Nat) : Stage → Prop
  | .told => True
  | .reconsidering n => n ≤ i
  | _ => False

theorem Stage.reconsiders_of_isAhead {stage : Stage} {i : Nat} (h : stage.isAhead i) :
    stage.reconsiders = true := by
  cases stage with
  | told | reconsidering n => rfl
  | resting | advancing n => exact h.elim

/-- Whether the connection at the place has done what is due in this turn. -/
def Stage.isBehind (i : Nat) : Stage → Prop
  | .resting => True
  | .advancing n => i < n
  | _ => False

namespace Lookout

/-- What one access of the pool may do. -/
inductive Owns (env : Surroundings) (now : Time) (x : Lookout) : Lookout → List Effect → Prop where
  | rests : x.stage = .resting → x.pool.subject? now x.directory = none → Owns env now x x []
  | learns :
    x.stage = .resting → x.pool.subject? now x.directory = some (.directory x.directory) →
      Owns env now x { x with pool := x.pool.see x.directory, stage := .told } []
  | looks {subject : Subject} :
    x.stage = .resting → x.pool.subject? now x.directory = some subject →
      (∀ directory, subject ≠ .directory directory) →
        Owns env now x
          { x with pool := (x.pool.look (x.around env) now subject).1, stage := .advancing 0 }
          (x.pool.look (x.around env) now subject).2
  | notes :
    x.stage = .told →
      Owns env now x { x with pool := x.pool.see x.directory, stage := .reconsidering 0 } []
  | reconsiders {n : Nat} {c : Connection} :
    x.stage = .reconsidering n → x.pool.connections[n]? = some c →
      Owns env now x
        { x with
          pool :=
            x.pool.place n (c.reconsider (x.around env) x.pool.config now x.pool.ledger)
          stage := .reconsidering (n + 1) }
        (c.reconsider (x.around env) x.pool.config now x.pool.ledger).effects
  | turns {n : Nat} :
    x.stage = .reconsidering n → x.pool.connections[n]? = none →
      Owns env now x { x with stage := .advancing 0 } []
  | advances {n : Nat} {c : Connection} :
    x.stage = .advancing n → x.pool.connections[n]? = some c →
      Owns env now x
        { x with
          pool := x.pool.place n (c.advance (x.around env) x.pool.config now x.pool.ledger)
          stage := .advancing (n + 1) }
        (c.advance (x.around env) x.pool.config now x.pool.ledger).effects
  | sheds {n : Nat} :
    x.stage = .advancing n → x.pool.connections[n]? = none →
      Owns env now x { x with pool := (x.pool.shed now).1, stage := .resting } (x.pool.shed now).2

/-- The list is complete. -/
theorem owns (env : Surroundings) (now : Time) (x : Lookout) :
    Owns env now x (x.own env now).1 (x.own env now).2 := by
  unfold own
  split
  · next hstage =>
    split
    · next hnone => exact .rests hstage hnone
    · next other hsubject =>
      obtain rfl := eq_of_subject? hsubject
      exact .learns hstage hsubject
    · next subject hother hsubject => exact .looks hstage hsubject hother
  · next hstage => exact .notes hstage
  · next hstage =>
    split
    · next hc => exact .reconsiders hstage hc
    · next hnone => exact .turns hstage hnone
  · next hstage =>
    split
    · next hc => exact .advances hstage hc
    · next hnone => exact .sheds hstage hnone

/-- The connections when one of them has moved. -/
theorem getElem?_place {n i : Nat} {moved : Moved} {d : Connection}
    (h : (p.place n moved).connections[i]? = some d) :
    i = n ∧ d = moved.connection ∨ i ≠ n ∧ p.connections[i]? = some d := by
  unfold place at h
  dsimp only at h
  rw [List.getElem?_set] at h
  split at h
  · next heq =>
    split at h
    · exact .inl ⟨heq.symm, (Option.some.inj h).symm⟩
    · cases h
  · next hne => exact .inr ⟨Ne.symm hne, h⟩

end Lookout

end Pool

end RemoteCall
