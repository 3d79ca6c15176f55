import Pmx.Library.WaitNotify

/-!
# The three producer and consumer pairs

A real-time signal processor feeds a queue and notifies, a thread empties the
queue and waits.  None of the three signal processors takes the mutex of the
condition variable around its push, so each of them can push and notify while
its consumer is between the last test of the queue and the blocking.
-/

namespace Pmx.Wakeup

open Transition WaitNotify

inductive Pair
  | filterChainCtrl
  | midiRouter
  | oscNetworkSender
  deriving DecidableEq, Repr

/-- How each pair waits and notifies.  `pmx-filter-chain-ctrl` notifies once for
all packets of a buffer; `pmx-osc-network-sender` waits without a predicate, on a
lock that it holds from the start. -/
def Pair.program : Pair → Program
  | .filterChainCtrl => ⟨128, true, true⟩
  | .midiRouter => ⟨2, true, false⟩
  | .oscNetworkSender => ⟨128, false, false⟩

/-- **Wake-ups.**  A run in which no notify falls into the window between the
consumer's last test and its blocking strands no message.  In any reachable
state with such a notify to come, performing it strands the queue. -/
theorem not_stranded_iff_window (pair : Pair) (α : Type) :
    (∀ labels s, Run step notLost (initial pair.program α) labels s → ¬ Stranded s) ∧
      ∀ labels s, Reaches step (initial pair.program α) labels s → s.unnotified = true →
        ¬ notLost s .notify →
          ∃ s', Reaches step (initial pair.program α) (labels ++ [.notify] ++ [.consumer]) s' ∧
            Stranded s' := by
  refine ⟨fun labels s run => not_stranded run, ?_⟩
  intro labels s run hpending hlost
  obtain ⟨s', hexec, hstranded⟩ := stranded_of_lost_notify hlost hpending
  refine ⟨s', ?_, hstranded⟩
  rw [List.append_assoc]
  exact run.extend hexec

/-- A message for a consumer that is already blocked wakes it up. -/
theorem not_stranded_iff_window_blocked :
    ∃ s : State Pair.midiRouter.program Unit, s.phase = .waking ∧ s.queue.items = [()] ∧
      ¬ Stranded s := by
  have htrace : (exec (fun s a => if decide (notLost s a) then step s a else none)
      (initial Pair.midiRouter.program Unit)
      [.consumer, .consumer, .consumer, .consumer, .push (), .notify]).map (fun s =>
        decide (s.phase = .waking ∧ s.queue.items = [()])) = some true := by
    decide
  obtain ⟨s, hs, hlast⟩ := Option.map_eq_some_iff.mp htrace
  obtain ⟨hphase, hqueue⟩ := of_decide_eq_true hlast
  exact ⟨s, hphase, hqueue,
    (not_stranded_iff_window .midiRouter Unit).1 _ s
      (run_of_checked (fun _ _ => of_decide_eq_true) hs)⟩

/-- The steps of the consumer up to its blocking, with a push and its notify in
front of the last one. -/
def lostTrace (pair : Pair) : List (Label Unit) :=
  (if pair.program.predicate then [.consumer, .consumer, .consumer] else [.consumer]) ++
    [.push (), .notify, .consumer]

/-- No pair is free of lost wake-ups. -/
theorem stranded_reachable :
    ¬ ∃ pair : Pair, ∀ labels s, Reaches step (initial pair.program Unit) labels s →
      ¬ Stranded s := by
  rintro ⟨pair, hsafe⟩
  have htrace : (exec step (initial pair.program Unit) (lostTrace pair)).map
      (fun s => decide (Stranded s)) = some true := by
    cases pair <;> decide
  obtain ⟨s, run, hs⟩ := exists_of_exec htrace
  exact hsafe _ s run (of_decide_eq_true hs)

end Pmx.Wakeup
