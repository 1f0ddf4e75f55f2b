import TinRpc.Lib.SortedList

/-!
# The match queue

`MatchQueue` of `src/game/match_queue.cpp`. Scores and waiting times are `double`s of a type `E`.
What the clock reads is given to the operations that ask for it, in milliseconds, and a round of
matching takes one reading. Instead of calling the match callback, `TryMatch` returns the calls.
-/

namespace TinRpc

open SortedList (lowerBound)

/-- `MatchQueue::Entry`. -/
structure Entry (E : Type) where
  playerId : String
  eloScore : E
  enqueueTimeMs : ℤ
  deriving DecidableEq

/-- The arithmetic of `double`, and `std::sort` by score. -/
class Doubles (E : Type) where
  ofInt : ℤ → E
  add : E → E → E
  sub : E → E → E
  mul : E → E → E
  div : E → E → E
  abs : E → E
  lt : E → E → Bool
  le : E → E → Bool
  sort : List (Entry E) → List (Entry E)
  sort_perm (queue : List (Entry E)) : (sort queue).Perm queue

/-- The largest `double`. -/
class DoubleLimits (E : Type) extends Doubles E where
  max : E

/-- A call of the match callback. -/
structure Matched (E : Type) where
  p1 : String
  s1 : E
  p2 : String
  s2 : E
  deriving DecidableEq

structure MatchQueue (E : Type) where
  queue : List (Entry E) := []
  maxWaitSec : ℤ := 30
  eloRangeInit : E
  eloRangeExpandPerSec : E

namespace MatchQueue

variable {E : Type} [Doubles E]

/-- The constructor's defaults. -/
def new : MatchQueue E :=
  { eloRangeInit := Doubles.ofInt 100, eloRangeExpandPerSec := Doubles.ofInt 20 }

variable (q : MatchQueue E)

/-- `MatchQueue::FindIndex`. -/
def findIndex (playerId : String) : Option ℕ :=
  q.queue.findIdx? fun e => e.playerId = playerId

/-- `MatchQueue::CurrentEloRange`. -/
def currentEloRange (now enqueueTimeMs : ℤ) : E :=
  let waitedSec : E := Doubles.div (Doubles.ofInt (now - enqueueTimeMs)) (Doubles.ofInt 1000)
  let sec := if Doubles.le (Doubles.ofInt q.maxWaitSec) waitedSec then Doubles.ofInt q.maxWaitSec
    else waitedSec
  Doubles.add q.eloRangeInit (Doubles.mul q.eloRangeExpandPerSec sec)

/-- `MatchQueue::EnterQueue`. -/
def enterQueue (now : ℤ) (playerId : String) (eloScore : E) : MatchQueue E :=
  match q.findIndex playerId with
  | some idx =>
    let queue := q.queue.modify idx fun e => { e with eloScore := eloScore }
    { q with queue := Doubles.sort queue }
  | none =>
    let it := lowerBound (fun e : Entry E => Doubles.lt e.eloScore eloScore) q.queue
    { q with queue := q.queue.insertIdx it ⟨playerId, eloScore, now⟩ }

/-- `MatchQueue::CancelMatch`. -/
def cancelMatch (playerId : String) : MatchQueue E :=
  match q.findIndex playerId with
  | some idx => { q with queue := q.queue.eraseIdx idx }
  | none => q

def isInQueue (playerId : String) : Bool := (q.findIndex playerId).isSome

/-! ## A round of matching -/

/-- Whether two neighbours are in each other's range. -/
def inRange (now : ℤ) (a b : Entry E) : Bool :=
  let diff := Doubles.abs (Doubles.sub a.eloScore b.eloScore)
  Doubles.le diff (q.currentEloRange now a.enqueueTimeMs) &&
    Doubles.le diff (q.currentEloRange now b.enqueueTimeMs)

/-- The loop of `TryMatch` over the neighbours, with the places already paired. -/
def pairLoop (now : ℤ) : ℕ → ℕ → List Bool → List (String × String) × List Bool
  | 0, _, paired => ([], paired)
  | n + 1, i, paired =>
    match q.queue[i]?, q.queue[i + 1]? with
    | some a, some b =>
      if paired.getD i false then pairLoop now n (i + 1) paired
      else if q.inRange now a b then
        let r := pairLoop now n (i + 2) ((paired.set i true).set (i + 1) true)
        ((a.playerId, b.playerId) :: r.1, r.2)
      else pairLoop now n (i + 1) paired
    | _, _ => ([], paired)

/-- The score `TryMatch` saves for a player: that of the last entry under his id. -/
def savedScore (playerId : String) : E :=
  q.queue.foldl (fun s e => if e.playerId = playerId then e.eloScore else s) (Doubles.ofInt 0)

/-- The loop that takes the paired places out, from the back. -/
def eraseLoop (paired : List Bool) : ℕ → List (Entry E) → List (Entry E)
  | 0, queue => queue
  | i + 1, queue =>
    eraseLoop paired i (if paired.getD i false then queue.eraseIdx i else queue)

/-- `MatchQueue::TryMatch`, with the calls of the match callback in order. -/
def tryMatch (now : ℤ) : MatchQueue E × List (Matched E) :=
  if q.queue.length < 2 then (q, [])
  else
    let r := q.pairLoop now q.queue.length 0 (List.replicate q.queue.length false)
    ({ q with queue := eraseLoop r.2 q.queue.length q.queue },
      r.1.map fun p => ⟨p.1, q.savedScore p.1, p.2, q.savedScore p.2⟩)

/-- `MatchQueue::TryMatch` with a callback that may do something to a state `S` and to the queue:
what is left of the two, and the pairs returned. -/
def tryMatchWith {S : Type} (now : ℤ)
    (onMatch : Option (Matched E → S × MatchQueue E → S × MatchQueue E)) (s : S) :
    (S × MatchQueue E) × List (String × String) :=
  if q.queue.length < 2 then ((s, q), [])
  else
    let r := q.pairLoop now q.queue.length 0 (List.replicate q.queue.length false)
    let matchScores := r.1.map fun p =>
      (⟨p.1, q.savedScore p.1, p.2, q.savedScore p.2⟩ : Matched E)
    let q := { q with queue := eraseLoop r.2 q.queue.length q.queue }
    (match onMatch with
      | some callback => matchScores.foldl (fun after m => callback m after) (s, q)
      | none => (s, q), r.1)

/-! ## Runs -/

/-- A call on the queue. -/
inductive Op (E : Type)
  | enterQueue (now : ℤ) (playerId : String) (eloScore : E)
  | cancelMatch (playerId : String)
  | tryMatch (now : ℤ)

def step (q : MatchQueue E) : Op E → Option (MatchQueue E)
  | .enterQueue now playerId eloScore => some (q.enterQueue now playerId eloScore)
  | .cancelMatch playerId => some (q.cancelMatch playerId)
  | .tryMatch now => some (q.tryMatch now).1

end MatchQueue

namespace MatchQueue

variable {E : Type} [DoubleLimits E] (q : MatchQueue E)

/-! ## An opponent for one player -/

/-- The body of `FindMatch`'s loop: the place of the best opponent so far and the difference of
scores. -/
def findStep (idx : ℕ) (myScore myRange : E) (best : Option ℕ × E) (e : Entry E × ℕ) :
    Option ℕ × E :=
  if e.2 = idx then best
  else
    let diff := Doubles.abs (Doubles.sub e.1.eloScore myScore)
    if Doubles.le diff myRange && Doubles.lt diff best.2 then (some e.2, diff) else best

def findLoop (idx : ℕ) (myScore myRange : E) : Option ℕ × E :=
  q.queue.zipIdx.foldl (findStep idx myScore myRange) (none, DoubleLimits.max)

/-- `MatchQueue::FindMatch`, with the call of the match callback. -/
def findMatch (now : ℤ) (playerId : String) :
    MatchQueue E × String × Option (Matched E) :=
  match q.findIndex playerId with
  | none => (q, "", none)
  | some idx =>
    match q.queue[idx]? with
    | none => (q, "", none)
    | some me =>
      let bestIdx :=
        (q.findLoop idx me.eloScore (q.currentEloRange now me.enqueueTimeMs)).1
      match bestIdx.bind fun bestIdx => q.queue[bestIdx]?.map fun e => (bestIdx, e) with
      | none => (q, "", none)
      | some (bestIdx, opponent) =>
        let queue :=
          if bestIdx < idx then (q.queue.eraseIdx idx).eraseIdx bestIdx
          else (q.queue.eraseIdx bestIdx).eraseIdx idx
        ({ q with queue := queue }, opponent.playerId,
          some ⟨playerId, me.eloScore, opponent.playerId, opponent.eloScore⟩)

end MatchQueue

end TinRpc
