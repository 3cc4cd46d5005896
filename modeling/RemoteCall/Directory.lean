/-
  RemoteCall.Directory
  ────────────────────
  **WHERE AGENTS ARE TO BE FOUND.**

  A directory lists the peers of each agent in order of preference and counts
  its changes.  A change is made in two steps, first the entry and then the
  count (`Directory.announce`), so that a subscriber to the count finds the
  entry changed when the count has.  An agent without peers is not an error: it
  may come.
-/
import RemoteCall.AgentName
import RemoteCall.PeerName

namespace RemoteCall

/-- The peers of each agent, and how often that has changed. -/
structure Directory where
  /-- The agents that are known, with their peers. -/
  entries : List (AgentName × List PeerName) := []
  /-- How many changes have been announced. -/
  generation : Nat := 0
  deriving Inhabited

namespace Directory

/-- The peers of an agent, in order of preference. -/
def peers (d : Directory) (name : AgentName) : List PeerName :=
  ((d.entries.find? (·.1 == name)).map (·.2)).getD []

/-- Whether an agent has an entry. -/
def knows (d : Directory) (name : AgentName) : Bool :=
  d.entries.any (·.1 == name)

/-! ## §1. The two steps of a change. -/

/-- Sets the entry of an agent. -/
def enter (d : Directory) (name : AgentName) (peers : List PeerName) : Directory :=
  { d with entries := (name, peers) :: d.entries.filter (·.1 != name) }

/-- Strikes out the entry of an agent. -/
def strike (d : Directory) (name : AgentName) : Directory :=
  { d with entries := d.entries.filter (·.1 != name) }

/-- Announces a change. -/
def announce (d : Directory) : Directory :=
  { d with generation := d.generation + 1 }

/-- A list of peers with one more at its end, unless it is there already. -/
def withPeer (peers : List PeerName) (peer : PeerName) : List PeerName :=
  if peers.any (·.same peer) then peers else peers ++ [peer]

/-! ## §2. Changes. -/

/-- Adds a peer of an agent. -/
def register (d : Directory) (name : AgentName) (peer : PeerName) : Directory :=
  (d.enter name (withPeer (d.peers name) peer)).announce

/-- Replaces the peers of an agent. -/
def set (d : Directory) (name : AgentName) (peers : List PeerName) : Directory :=
  (d.enter name peers).announce

/-- Forgets an agent; nothing is announced if it was not known. -/
def remove (d : Directory) (name : AgentName) : Directory :=
  if d.knows name then (d.strike name).announce else d

@[simp] theorem peers_enter_self (d : Directory) (name : AgentName) (peers : List PeerName) :
    (d.enter name peers).peers name = peers := by
  simp [Directory.peers, enter]

@[simp] theorem peers_announce (d : Directory) (name : AgentName) :
    d.announce.peers name = d.peers name := rfl

end Directory

/-! ## §3. Subscribers. -/

/-- What a subscriber has seen of a directory. -/
structure Subscription where
  /-- The count of changes at the last look. -/
  seen : Nat
  deriving DecidableEq, Repr, Inhabited

namespace Subscription

/-- A subscriber starts with the changes that have been made so far. -/
def start (d : Directory) : Subscription := ⟨d.generation⟩

/-- Whether there is a change that has not been seen. -/
def isStale (s : Subscription) (d : Directory) : Bool :=
  s.seen != d.generation

end Subscription

end RemoteCall
