import ServiceHost.Proofs.Host.Frame

/-!
# The journal — what effects and reports add to it

Code that a host does not know may write into the journal, and **it can only add to its end**
(`Effect.exists_journal_run`). So what the host itself writes around such code stands where it was
written, and its reports can be told from a list (`Host.journal_reporting`).
-/

set_option autoImplicit false

namespace ServiceHost

/-- A request to the world adds to the end of the journal at most. -/
theorem World.journal_prefix_perform (op : WorldOp) (world : World) :
    world.journal <+: (world.perform op).2.journal := by
  cases op with
  | report monitor report => exact List.prefix_append _ _
  | note label details => exact List.prefix_append _ _
  | _ => exact List.prefix_rfl

/-- **An effect adds to the end of the journal at most.** -/
theorem Effect.exists_journal_run {α : Type} (effect : Effect α) (world : World) :
    ∃ own, (effect.run world).2.journal = world.journal ++ own := by
  have hprefix : world.journal <+: (effect.run world).2.journal :=
    @Program.run_invariant _ _ _ _ World.perform (fun _ => True) (world.journal <+: ·.journal)
      (fun op after _ h => h.trans (World.journal_prefix_perform op after))
      effect (Program.allOps_of_forall (fun _ => trivial) effect) world List.prefix_rfl
  obtain ⟨own, hown⟩ := hprefix
  exact ⟨own, hown.symm⟩

/-- What reports to a monitor come to in the journal. -/
def Monitor.events (monitor : Monitor) (reports : List Report) : List Event :=
  (reports.flatMap monitor.deliveries).map .delivered

namespace Host

/-- The host after reports, made one after the other. -/
def reporting (reports : List Report) (host : Host) : Host :=
  reports.foldl (fun host report => (Host.report report host).2) host

theorem reporting_append (reports more : List Report) (host : Host) :
    host.reporting (reports ++ more) = (host.reporting reports).reporting more :=
  List.foldl_append

theorem context_reporting (reports : List Report) (host : Host) :
    (host.reporting reports).context = host.context := by
  induction reports generalizing host with
  | nil => rfl
  | cons report rest ih => exact ih _

theorem journal_reporting (reports : List Report) (host : Host) :
    (host.reporting reports).world.journal =
      host.world.journal ++ host.context.monitor.events reports := by
  induction reports generalizing host with
  | nil => simp [reporting, Monitor.events]
  | cons report rest ih =>
    have hfirst : (Host.report report host).2.world.journal =
        host.world.journal ++ (host.context.monitor.deliveries report).map .delivered := rfl
    refine (ih (Host.report report host).2).trans ?_
    rw [hfirst, Host.context_report, List.append_assoc, Monitor.events, Monitor.events,
      List.flatMap_cons, List.map_append]

end Host

end ServiceHost
