/-
  Reflash.Proofs.Silence

  A node does not leave early. Over any run in which the clock does not go back, a
  node jumps to its application of its own accord only when its limit has gone by
  since its first call and since every call in which a packet got as far as the
  reassembler. What is not heard, because nothing came, because it was not a frame,
  or because the link failed, moves nothing: the silence goes on as it was.
-/
import Reflash.Proofs.Watch

namespace Reflash

/-! ## Reports in order -/

namespace Report

/-- The latest report comes first, and no call was made before an earlier one. -/
def InOrder (reports : List Report) : Prop :=
  reports.Pairwise fun report earlier => earlier.now ≤ report.now

/-- The time that silence is counted from is the time of a call. -/
theorem exists_of_lastHeard {reports : List Report} {time : Nat}
    (h : lastHeard reports = some time) : ∃ report ∈ reports, report.now = time := by
  induction reports with
  | nil => cases h
  | cons report earlier ih =>
    rw [lastHeard, Option.some.injEq] at h
    split at h
    · exact ⟨report, List.mem_cons_self, h⟩
    · -- Nothing was heard in the latest call: the time is that of an earlier one, if there is any.
      cases hearlier : lastHeard earlier with
      | none =>
        rw [hearlier] at h
        exact ⟨report, List.mem_cons_self, h⟩
      | some before =>
        rw [hearlier] at h
        obtain ⟨report', hmem, hnow⟩ := ih (hearlier.trans (congrArg some h))
        exact ⟨report', List.mem_cons_of_mem _ hmem, hnow⟩

theorem lastHeard_eq_none {reports : List Report} : lastHeard reports = none ↔ reports = [] := by
  cases reports <;> simp [lastHeard]

/-- Silence is counted from no earlier than the first call and whatever was heard. -/
theorem le_lastHeard {reports : List Report} (horder : InOrder reports) {time : Nat}
    (h : lastHeard reports = some time) :
    (∀ report ∈ reports, report.isHeard = true → report.now ≤ time)
      ∧ ∀ first ∈ reports.getLast?, first.now ≤ time := by
  induction reports generalizing time with
  | nil => cases h
  | cons report earlier ih =>
    obtain ⟨hlatest, hbefore⟩ := List.pairwise_cons.1 horder
    rw [lastHeard, Option.some.injEq] at h
    by_cases hheard : report.isHeard = true
    · -- What is heard now is not before anything that was called earlier.
      rw [if_pos hheard] at h
      have hall : ∀ report' ∈ report :: earlier, report'.now ≤ time := by
        intro report' hmem
        rcases List.mem_cons.1 hmem with rfl | hmem
        · exact Nat.le_of_eq h
        · exact h ▸ hlatest report' hmem
      exact ⟨fun report' hmem _ => hall report' hmem,
        fun first hfirst => hall first (List.mem_of_getLast? hfirst)⟩
    · rw [if_neg hheard] at h
      cases hearlier : lastHeard earlier with
      | none =>
        obtain rfl := lastHeard_eq_none.1 hearlier
        have hnow : report.now = time := h
        simp [hheard, hnow]
      | some before =>
        rw [hearlier] at h
        obtain ⟨hheards, hfirst⟩ := ih hbefore (hearlier.trans (congrArg some h))
        refine ⟨?_, ?_⟩
        · rintro report' hmem hheard'
          rcases List.mem_cons.1 hmem with rfl | hmem
          · exact absurd hheard' hheard
          · exact hheards report' hmem hheard'
        · intro first hmem
          have hsome : earlier ≠ [] := fun hnil => by simp [hnil, lastHeard] at hearlier
          rw [List.getLast?_cons_of_ne_nil hsome] at hmem
          exact hfirst first hmem

end Report

namespace Node

variable {τ : Type} [Transport τ] {g : Geometry} {node : Node τ} {call : Call}

/-- A node that does not look at its clock makes no request, unless it hands a datagram that it has
received to the installer. -/
theorem trace_called_busy (now : Nat) (hlooks : ¬node.Looks call) (device : Device g) :
    (node.called g now call).trace device = []
      ∨ ∃ packet datagram, node.received? call = some (.delivered packet datagram)
        ∧ node.config.addressedElsewhere datagram.header.target = false
        ∧ (node.called g now call).trace device
          = (node.installer.process g datagram).trace device := by
  cases call with
  | check => exact absurd nofun hlooks
  | poll =>
    have hpolls := poll_polls g node now
    have hheard : (node.endpoint.receive.1.unheard?).isSome = false := by
      refine Bool.eq_false_iff.2 fun hunheard => hlooks ?_
      rintro _ ⟨⟩
      exact hunheard
    rw [called, received?]
    generalize node.endpoint.receive.1 = receipt at hpolls hheard ⊢
    generalize node.endpoint.receive.2 = endpoint at hpolls
    generalize node.poll g now = poll at hpolls ⊢
    cases hpolls with
    | unheard unheard =>
      rw [unheard] at hheard
      cases hheard
    | handled packet datagram here =>
      refine .inr ⟨packet, datagram, rfl, here, ?_⟩
      simp only [Procedure.trace_bind]
      exact (List.append_nil _).trans (List.append_nil _)
    | _ => exact .inl rfl

end Node

namespace Watch

variable {τ : Type} {g : Geometry} {watch : Watch τ g} {call : Call} {now : Nat}

/-! ## A clock that does not go back -/

/-- The times of the calls that are made. -/
def times (occurrences : List (Occurrence τ)) : List Nat :=
  occurrences.filterMap fun
    | .call _ now => some now
    | _ => none

variable [Transport τ]

/-- Each call is reported with its time, the latest first. -/
theorem times_reports (watch : Watch τ g) (occurrences : List (Occurrence τ)) :
    (watch.run occurrences).reports.map Report.now
      = (times occurrences).reverse ++ watch.reports.map Report.now := by
  induction occurrences generalizing watch with
  | nil => rfl
  | cons occurrence occurrences ih =>
    rw [run, List.foldl_cons]
    refine (ih (watch.step occurrence)).trans ?_
    cases occurrence <;> simp [times, step]

/-- Where the clock has not gone back, the reports are in order. -/
theorem inOrder_run {node : Node τ} {device : Device g} {occurrences : List (Occurrence τ)}
    (hclock : (times occurrences).Pairwise (· ≤ ·)) :
    Report.InOrder (run ⟨node, device, []⟩ occurrences).reports := by
  have htimes := times_reports (⟨node, device, []⟩ : Watch τ g) occurrences
  rw [List.map_nil, List.append_nil] at htimes
  have hreversed : ((run ⟨node, device, []⟩ occurrences).reports.map Report.now).Pairwise
      fun later earlier => earlier ≤ later := by
    rw [htimes]
    exact List.pairwise_reverse.2 hclock
  exact List.pairwise_map.1 hreversed

/-! ## Leaving -/

/-- The reports once `call` has been made, too. -/
theorem reports_step (watch : Watch τ g) (call : Call) (now : Nat) :
    (watch.step (.call call now)).reports
      = ⟨now, watch.node.received? call,
          ((watch.node.called g now call).run watch.device).1.1⟩ :: watch.reports :=
  rfl

/-- A node that keeps to its clock and tries to leave has been left alone for its whole limit, from
its first call on and from every call in which something was heard. -/
theorem Clocked.silent_of_overdue {limit : Nat} (h : watch.Clocked limit)
    (hlimit : limit ≤ NodeConfig.never) (hlooks : watch.node.Looks call)
    (horder : Report.InOrder (watch.step (.call call now)).reports)
    (hoverdue : ¬watch.node.silence now < watch.node.config.timeout) :
    (∀ report ∈ (watch.step (.call call now)).reports, report.isHeard = true →
        report.now + limit ≤ now)
      ∧ ∀ first ∈ (watch.step (.call call now)).reports.getLast?, first.now + limit ≤ now := by
  -- Lifting the limit only ever makes it longer.
  have hshortest : limit ≤ watch.node.config.timeout := by
    by_cases hrefused : ∃ report ∈ watch.reports, report.Refused
    · exact (h.lifted hrefused).symm ▸ hlimit
    · exact Nat.le_of_eq
        (h.standing fun report hmem hrefuse => hrefused ⟨report, hmem, hrefuse⟩).symm
  -- The present call is no sign of life, so that silence is still counted from the same time.
  have hunheard : (watch.node.received? call).any Receipt.isRouted = false := hlooks.unrouted
  have hheard : Report.lastHeard (watch.step (.call call now)).reports
      = some ((Report.lastHeard watch.reports).getD now) := by
    rw [reports_step, Report.lastHeard, Report.isHeard, hunheard, if_neg Bool.false_ne_true]
  have hpast : (Report.lastHeard watch.reports).getD now ≤ now := by
    obtain ⟨report, hmem, hnow⟩ := Report.exists_of_lastHeard hheard
    rw [← hnow]
    rcases List.mem_cons.1 hmem with rfl | hmem
    · exact Nat.le_refl _
    · exact (List.pairwise_cons.1 horder).1 report hmem
  obtain ⟨hheards, hfirst⟩ := Report.le_lastHeard horder hheard
  rw [h.silence_eq, unheardFor] at hoverdue
  refine ⟨fun report hmem hreport => ?_, fun first hmem => ?_⟩
  · have := hheards report hmem hreport
    omega
  · have := hfirst first hmem
    omega

/-- A node does not leave early. Over any run of a node whose limit is a time that a clock can
show, and whose clock does not go back, a call makes the jumper jump only for a datagram that the
node has received and handed to its installer, or for want of anything to do: then the limit has
gone by since the first call of the run and since every call in which a packet got as far as the
reassembler, this one included. A call in which none did leaves the silence that the node sees, and
its limit unless the node is refused to leave, as they were. -/
theorem leaves_only_when_silent {node : Node τ} (hfresh : node.lastActivity = none)
    (hlimit : node.config.timeout ≤ NodeConfig.never) (device : Device g)
    (occurrences : List (Occurrence τ)) (call : Call) (now : Nat)
    (hclock : (times (occurrences ++ [.call call now])).Pairwise (· ≤ ·)) :
    let watch := run ⟨node, device, []⟩ occurrences
    let next := watch.node.called g now call
    let after := watch.step (.call call now)
    (next.jumps watch.device ≠ [] →
      (∃ packet datagram, watch.node.received? call = some (.delivered packet datagram)
        ∧ watch.node.config.addressedElsewhere datagram.header.target = false
        ∧ next.trace watch.device = (watch.node.installer.process g datagram).trace watch.device)
      ∨ watch.node.Looks call
        ∧ (∀ report ∈ after.reports, report.isHeard = true →
            report.now + node.config.timeout ≤ now)
        ∧ ∀ first ∈ after.reports.getLast?, first.now + node.config.timeout ≤ now)
    ∧ ((watch.node.received? call).any Receipt.isRouted = false →
      (∀ later, after.node.silence later
        = if watch.reports = [] then later - now else watch.node.silence later)
      ∧ (¬(⟨now, watch.node.received? call, (next.run watch.device).1.1⟩ : Report).Refused →
        after.node.config = watch.node.config)) := by
  intro watch next after
  have hclocked : watch.Clocked node.config.timeout := run_clocked hfresh device occurrences
  have hafter : run ⟨node, device, []⟩ (occurrences ++ [.call call now]) = after := by
    simp only [run, List.foldl_append]
    rfl
  have horder : Report.InOrder after.reports := hafter ▸ inOrder_run hclock
  constructor
  · intro hjumps
    by_cases hlooks : watch.node.Looks call
    · -- The node looks at its clock, and does nothing while its limit is not up.
      by_cases hprompt : watch.node.silence now < watch.node.config.timeout
      · refine absurd ?_ hjumps
        rw [Procedure.jumps, (trace_called hlooks hprompt).1]
        rfl
      · exact .inr ⟨hlooks, hclocked.silent_of_overdue hlimit hlooks horder hprompt⟩
    · rcases Node.trace_called_busy now hlooks watch.device with hnone | hhandled
      · refine absurd ?_ hjumps
        rw [Procedure.jumps, hnone]
        rfl
      · exact .inl hhandled
  · intro hunheard
    have hactivity := Node.run_called_activity watch.node now call watch.device
    rw [hunheard, if_neg Bool.false_ne_true] at hactivity
    refine ⟨fun later => ?_, fun hrefused => ?_⟩
    · have hlast : after.node.lastActivity = some (watch.node.lastActivity.getD now) := hactivity
      rw [Node.silence, Node.silence, hlast, hclocked.activity_eq, Option.getD_some]
      split
      · next hnone => rw [hnone]; rfl
      · next hsome =>
        cases hheard : Report.lastHeard watch.reports with
        | none => exact absurd (Report.lastHeard_eq_none.1 hheard) hsome
        | some time => rfl
    · rcases Node.run_called_limit watch.node now call watch.device with ⟨-, hconfig⟩ | ⟨hrefuse, -⟩
      · exact hconfig
      · exact absurd hrefuse hrefused

/-- A node that has taken an update and is then left alone for its whole limit. -/
theorem patient_leaves :
    (patient.node.called Pocket.geometry 500 .check).jumps patient.device = [.application]
      ∧ (patient.step (.call .check 500)).reports.map Report.isHeard
        = [false, true, true, true, true] := by
  decide +kernel

theorem leaves_only_when_silent_patient :
    let after := patient.step (.call .check 500)
    (patient.node.called Pocket.geometry 500 .check).jumps patient.device = [.application]
      ∧ after.reports.map Report.isHeard = [false, true, true, true, true]
      ∧ ∀ report ∈ after.reports, report.isHeard = true → report.now + 500 ≤ 500 := by
  intro after
  obtain ⟨hjumps, hreports⟩ := patient_leaves
  obtain ⟨hleft, -⟩ := leaves_only_when_silent (show unprovided.lastActivity = none from rfl)
    (by decide) ({} : Device Pocket.geometry) (List.replicate 4 (.call .poll 0)) .check 500
    (by decide)
  have hreason := hleft (by
    show (patient.node.called Pocket.geometry 500 .check).jumps patient.device ≠ []
    rw [hjumps]
    exact List.cons_ne_nil _ _)
  rcases hreason with ⟨packet, datagram, hreceived, -⟩ | ⟨-, hheard, -⟩
  · cases hreceived
  · exact ⟨hjumps, hreports, hheard⟩

end Watch

end Reflash
