/-
  RemoteCall.Pool.Closing
  ───────────────────────
  **A POOL THAT CLOSES, AND ITS USERS MEANWHILE.**

  A pool that has noticed that it has to stop closes its queue, gives up one
  connection after the other, and takes from the queue what is left there, one
  command after the other.  It tells each call on its own that it is gone.  The
  users that issue calls, and those that give them up, have a few accesses of
  their own to the pool and to the slots, and between any two accesses of the
  pool any of them may have theirs.

      Issuing, Withdrawing — how far they have come
      User, User.access    — one of them, and one of its accesses
      Closing              — the pool, the calls it is about to tell, its users
      Closing.own          — one access of the pool
      Closing.act, after   — whatever happens next, and one thing after the other
-/
import RemoteCall.Pool.Turn

namespace RemoteCall

namespace Pool

/-! ## §1. The users of the pool. -/

/-- How far a user has come with issuing a call. -/
inductive Issuing where
  /-- The slot is open; the request is to be written. -/
  | begun
  /-- The request is written, and is to be handed to the pool. -/
  | written (request : Bytes)
  /-- The pool takes no more; the call is to be told. -/
  | refused
  | done

/-- How far an observer has come with giving up a call. -/
inductive Withdrawing where
  /-- The failure is to be recorded. -/
  | begun
  /-- It has been recorded, and the pool is to be told. -/
  | recorded
  | done

/-- A user of the pool. -/
inductive User where
  /-- It issues a call, under the number of its slot. -/
  | issues (id : CallId) (key : ConnectionKey) (options : CallOptions)
    (request : Payload.Outgoing) (stage : Issuing)
  /-- It observes a call and gives it up: the time is over, or the call is aborted. -/
  | withdraws (id : CallId) (late : Bool) (stage : Withdrawing)

/-- What an observer that gives up a call records. -/
def withdrawal (late : Bool) : Failure :=
  if late then .timeout else .aborted

/-- The request as it goes out, if it can be written and is not too large. -/
def write (p : Pool) (request : Payload.Outgoing) : Outcome Bytes :=
  match request.encode with
  | .error e => .error e
  | .ok bytes => (p.checkSize bytes).map fun _ => bytes

namespace User

/-- One access of a user: to a slot, or to the queue of the pool. -/
def access (p : Pool) : User → Pool × User
  | .issues id key options request .begun =>
    match p.write request with
    | .error e => (p.fail id e, .issues id key options request .done)
    | .ok bytes => (p, .issues id key options request (.written bytes))
  | .issues id key options request (.written bytes) =>
    let (p, taken) := p.send (.call key ⟨id, bytes, options.deadline, options.idempotent, 0⟩)
    (p, .issues id key options request (if taken then .done else .refused))
  | .issues id key options request .refused =>
    (p.fail id .disconnected, .issues id key options request .done)
  | .withdraws id late .begun =>
    let (ledger, told) := p.ledger.cancel id (withdrawal late)
    ({ p with ledger }, .withdraws id late (if told then .recorded else .done))
  | .withdraws id late .recorded => ((p.send (.abort id)).1, .withdraws id late .done)
  | user => (p, user)

/-- Whether the user is still at issuing this call. -/
def isAt (id : CallId) : User → Prop
  | .issues own _ _ _ stage => own = id ∧ stage ≠ .done
  | .withdraws _ _ _ => False

end User

/-! ## §2. The pool among them. -/

/-- A pool that closes. -/
structure Closing where
  pool : Pool
  /-- The calls of the connection that is being given up which have not been told. -/
  leaving : List PendingCall := []
  /-- The users that have set to work, in the order in which they came. -/
  users : List User := []

/-- What happens while a pool closes. -/
inductive Act where
  /-- The pool has an access. -/
  | own
  /-- A user issues a call, and opens its slot. -/
  | issue (key : ConnectionKey) (options : CallOptions) (request : Payload.Outgoing)
    (response : Payload.Shape)
  /-- An observer sets out to give up a call. -/
  | withdraw (id : CallId) (late : Bool)
  /-- One of them has an access. -/
  | user (i : Nat)
  /-- A handle is taken. -/
  | acquire (key : ConnectionKey)
  /-- A handle is dropped. -/
  | release (key : ConnectionKey)
  /-- An attempt or a link reports something. -/
  | report (notice : Notice)

/-- The call of a command is told that the pool is gone. -/
def tellCommand (p : Pool) : Command → Pool
  | .call _ call => p.fail call.id .disconnected
  | _ => p

namespace Closing

/-- One access of a pool whose queue is closed: it tells one of the calls that are leaving, gives up
a connection, or takes a command that is left.  When nothing is left, it has stopped. -/
def proceed (x : Closing) : Closing × List Effect :=
  match x.leaving, x.pool.connections, x.pool.commands with
  | call :: rest, _, _ =>
    ({ x with pool := x.pool.fail call.id .disconnected, leaving := rest }, [])
  | [], c :: rest, _ =>
    ({ x with pool := { x.pool with connections := rest }, leaving := c.waiting ++ c.inFlight },
      c.leave)
  | [], [], first :: rest =>
    ({ x with pool := { x.pool with commands := rest }.tellCommand first }, [])
  | [], [], [] =>
    ({ x with pool := { x.pool with notices := [], stopped := true } },
      x.pool.notices.flatMap dropNotice)

/-- One access of the pool. -/
def own (x : Closing) : Closing × List Effect :=
  if x.pool.stopped then (x, [])
  else if x.pool.accepting then ({ x with pool := x.pool.closeQueue }, [])
  else x.proceed

/-- What is there after something has happened, and the effects on the outside. -/
def act (x : Closing) : Act → Closing × List Effect
  | .own => x.own
  | .issue key options request response =>
    let id := x.pool.nextCall
    ({ x with
        pool := { x.pool with nextCall := id + 1, ledger := x.pool.ledger.issue id response }
        users := x.users ++ [.issues id key options request .begun] }, [])
  | .withdraw id late => ({ x with users := x.users ++ [.withdraws id late .begun] }, [])
  | .user i =>
    match x.users[i]? with
    | some user =>
      let (pool, user) := user.access x.pool
      ({ x with pool, users := x.users.set i user }, [])
    | none => (x, [])
  | .acquire key => ({ x with pool := x.pool.acquire key }, [])
  | .release key => ({ x with pool := x.pool.release key }, [])
  | .report notice => ({ x with pool := { x.pool with notices := x.pool.notices ++ [notice] } }, [])

/-- What is there after several things have happened, and all effects on the outside. -/
def after (x : Closing) : List Act → Closing × List Effect
  | [] => (x, [])
  | act :: rest =>
    let (y, effects) := x.act act
    let (z, more) := y.after rest
    (z, effects ++ more)

end Closing

end Pool

end RemoteCall
