import Mathlib.Data.Int.Basic
import Mathlib.Logic.Function.Iterate

/-!
# The request counter

`QpsCounter` of `include/rpc/bench_stats.h`. Times are the steady clock's nanoseconds. A `Tick`
that writes outside the vector of buckets gives nothing.
-/

namespace TinRpc.Rpc

structure QpsCounter where
  buckets : List UInt64
  bucketIdx : ℕ := 0
  lastTick : ℤ
  totalRequests : UInt64 := 0
  requestsSinceTick : UInt64 := 0
  deriving DecidableEq, Repr

namespace QpsCounter

/-- `QpsCounter::QpsCounter`, ten buckets for each second of the window. -/
def new (windowSec : UInt64) (now : ℤ) : QpsCounter :=
  { buckets := List.replicate (windowSec * 10).toNat 0, lastTick := now }

/-- `QpsCounter::RecordRequest`. -/
def recordRequest (c : QpsCounter) : QpsCounter :=
  { c with requestsSinceTick := c.requestsSinceTick + 1 }

/-- `static_cast<int>`. -/
def toInt (n : ℤ) : ℤ := n.bmod 4294967296

/-- The `steps` of a `Tick` at `now` over a number of buckets, none if it comes too early. -/
def steps (size : ℕ) (lastTick now : ℤ) : Option ℤ :=
  let elapsedMs := (now - lastTick).tdiv 1000000
  if elapsedMs < 100 then none
  else
    let steps := toInt (elapsedMs.tdiv 100)
    some (if toInt size < steps then toInt size else steps)

/-- A turn of the loop of `Tick`. -/
def advance (c : QpsCounter) : QpsCounter :=
  let bucketIdx := (c.bucketIdx + 1) % c.buckets.length
  { c with
    bucketIdx := bucketIdx
    totalRequests := c.totalRequests + c.buckets.getD bucketIdx 0
    buckets := c.buckets.set bucketIdx 0 }

/-- The end of `Tick`: the pending requests are put into the current bucket. -/
def fill (c : QpsCounter) : Option QpsCounter :=
  match c.buckets[c.bucketIdx]? with
  | none => none
  | some count => some { c with
      buckets := c.buckets.set c.bucketIdx (count + c.requestsSinceTick), requestsSinceTick := 0 }

/-- `QpsCounter::Tick`. -/
def tick (c : QpsCounter) (now : ℤ) : Option QpsCounter :=
  match steps c.buckets.length c.lastTick now with
  | none => some c
  | some steps => fill (advance^[steps.toNat] { c with lastTick := now })

/-! ## Runs -/

/-- A call on the counter. -/
inductive Event
  | recordRequest
  | tick (now : ℤ)
  deriving DecidableEq, Repr

/-- One call. -/
def apply (c : QpsCounter) : Event → Option QpsCounter
  | .recordRequest => some c.recordRequest
  | .tick now => c.tick now

/-- A new counter after some calls. -/
def run (windowSec : UInt64) (start : ℤ) (events : List Event) : Option QpsCounter :=
  events.foldlM apply (new windowSec start)

/-- The number of requests among the calls. -/
def requests (events : List Event) : ℕ := events.count .recordRequest

end QpsCounter

end TinRpc.Rpc
