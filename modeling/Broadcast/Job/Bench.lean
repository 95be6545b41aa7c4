import Broadcast.Recipient

/-!
# Jobs and a bench

A job is a delivery that is still to be made. Jobs wait in a list whose front is next; a job that
has to be tried again goes to the back. A bench is such a list beside a hand that holds at most one
job. What is put back from the hand stays in it.
-/

namespace Broadcast

/-- A delivery to be made, and how often it was put back already. -/
structure Job where
  recipient : Recipient
  retries : UInt32
deriving DecidableEq, Repr

namespace Job

/-- A delivery that was not tried yet. -/
def fresh (r : Recipient) : Job := ⟨r, 0⟩

/-- The job put back once more. -/
def again (job : Job) : Job := { job with retries := job.retries + 1 }

/-- The job put back once more, as long as its retries can be counted. -/
def again? (job : Job) : Option Job :=
  if job.retries.toNat + 1 < 2 ^ 32 then some job.again else none

end Job

/-- Waiting jobs and a hand. -/
structure Bench where
  jobs : List Job
  hand : Option Job
deriving DecidableEq, Repr

namespace Bench

/-- Fresh jobs for some recipients, and nothing in the hand. -/
def ofRecipients (rs : List Recipient) : Bench := ⟨rs.map Job.fresh, none⟩

/-- What can be done at a bench. -/
inductive Action
  | pop
  | requeue
  | giveBack
  | push (job : Job)
deriving DecidableEq, Repr

/-- The bench with one more job at the back. -/
def push (b : Bench) (job : Job) : Bench :=
  { b with jobs := b.jobs ++ [job] }

/-- The bench after an action, unless a job would be put back more often than can be counted. -/
def step? (b : Bench) : Action → Option Bench
  | .pop => some ⟨b.jobs.tail, b.jobs.head?⟩
  | .requeue => b.hand.elim (some b) fun job => job.again?.map b.push
  | .giveBack => some (b.hand.elim b b.push)
  | .push job => some (b.push job)

end Bench

end Broadcast
