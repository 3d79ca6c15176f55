import Pmx.GrpcService
import Pmx.Library.IdleCall

/-!
# The calls of `wpcpp::Metadata`

`get_metadata_values`, `set_metadata_value` and `clear_metadata_value` may be
called from any thread.  All three have the main loop do the work in a callback
and wait for it on a condition variable in their own stack frame, with the same
two mutexes in the same order; only what the callback does is different.  (On
the main loop itself `set_metadata_value` writes without a callback.)
-/

namespace Pmx.MetadataCalls

open Cxx GrpcService IdleCall Transition

/-- The three operations of `Metadata`. -/
inductive Operation
  | getMetadataValues
  | setMetadataValue (key value : Str)
  | clearMetadataValue (key : Str)
  deriving DecidableEq

/-- What the callback does: the metadata behind it, and the values it collects. -/
def perform (operation : Operation) (metadata : Metadata) : Metadata × List MetadataItem :=
  match operation with
  | .getMetadataValues => (metadata, metadata.entries)
  | .setMetadataValue key value => (GrpcService.setMetadataValue metadata key value, [])
  | .clearMetadataValue key => (GrpcService.clearMetadataValue metadata key, [])

/-- The calls of some threads on one metadata object. -/
abbrev CallState (τ : Type) := State τ Operation Metadata (List MetadataItem)

/-- **Calls.**  In a run in which no call wakes up without a notify while the
inner mutex is free, no call returns before its callback has run to its end.
Whenever a call can wake up so, it can return at once with its callback still to
come.  In every run the metadata are what the performed operations make of them. -/
theorem calls_safe_iff_wokenInTime (τ : Type) [DecidableEq τ] (metadata : Metadata) :
    (∀ labels (s : CallState τ), Run (step perform) wokenInTime (initial metadata) labels s →
        Safe s) ∧
      (∀ labels (s : CallState τ) thread,
        Run (step perform) wokenInTime (initial metadata) labels s →
        (step perform s (.wakeUp thread)).isSome → ¬ wokenInTime s (.wakeUp thread) →
          ∃ s', Reaches (step perform) (initial metadata)
            (labels ++ [.wakeUp thread, .thread thread, .thread thread]) s' ∧ ¬ Safe s') ∧
      ∀ labels (s : CallState τ), Reaches (step perform) (initial metadata) labels s →
        s.store = storeAfter perform metadata s.performed := by
  refine ⟨fun _ _ run => safe_of_run run, ?_, fun _ _ run => store_of_run run⟩
  intro labels s thread run henabled hearly
  have hfree : s.inner = false := by simpa [wokenInTime] using hearly
  obtain ⟨call, hwaiting⟩ := waiting_of_wakeUp henabled
  obtain ⟨s', hexec, hreturned, hcompleted, _⟩ :=
    exists_early_return perform (consistent_of_run run) hwaiting hfree
  refine ⟨s', (run.mono fun _ _ _ => trivial).extend hexec, fun hsafe => ?_⟩
  obtain ⟨⟨_, result⟩, hmem, rfl⟩ := List.mem_map.mp hreturned
  exact hcompleted (hsafe.completed _ result hmem).1

/-- One thread writes, with a wake-up while its callback is at work, and then another one
reads. -/
def writeAndRead : List (Label Bool Operation) :=
  [.enter false (.setMetadataValue (lit "channel_port_1") (lit "a:1")), .thread false,
    .thread false, .thread false, .main, .main, .wakeUp false, .main, .main, .main, .thread false,
    .thread false, .enter true .getMetadataValues, .thread true, .thread true, .main, .thread true,
    .main, .main, .main, .main, .thread true, .thread true]

theorem calls_safe_iff_wokenInTime_write_and_read :
    ∃ s : CallState Bool, s.returned =
        [(0, some []), (1, some [⟨lit "channel_port_1", lit "a:1"⟩])] ∧
      Safe s ∧ s.store = storeAfter perform ∅ s.performed := by
  have htrace : (exec (fun s a => if decide (wokenInTime s a) then step perform s a else none)
      (initial (τ := Bool) (∅ : Metadata)) writeAndRead).map (fun s =>
        decide (s.returned =
          [(0, some []), (1, some [⟨lit "channel_port_1", lit "a:1"⟩])])) = some true := by
    decide +kernel
  obtain ⟨s, hs, hlast⟩ := Option.map_eq_some_iff.mp htrace
  have hrun : Run (step perform) wokenInTime (initial ∅) writeAndRead s :=
    run_of_checked (fun _ _ => of_decide_eq_true) hs
  obtain ⟨hsafe, -, hstore⟩ := calls_safe_iff_wokenInTime Bool ∅
  exact ⟨s, of_decide_eq_true hlast, hsafe _ s hrun, hstore _ s (hrun.mono fun _ _ _ => trivial)⟩

/-- A call that wakes up on its own returns with its callback still in the queue. -/
theorem early_return_reachable :
    ¬ ∀ labels (s : CallState Unit), Reaches (step perform) (initial ∅) labels s → Safe s := by
  intro hsafe
  have htrace : (exec (step perform) (initial (τ := Unit) (∅ : Metadata))
      [.enter () .getMetadataValues, .thread (), .thread (), .thread (), .wakeUp (), .thread (),
        .thread ()]).map (fun s =>
          decide (s.returned = [(0, none)] ∧ s.completed = [])) = some true := by
    decide
  obtain ⟨s, run, hlast⟩ := exists_of_exec htrace
  obtain ⟨hreturned, hcompleted⟩ := of_decide_eq_true hlast
  have hmem := ((hsafe _ s run).completed 0 none (by rw [hreturned]; simp)).1
  rw [hcompleted] at hmem
  cases hmem

end Pmx.MetadataCalls
