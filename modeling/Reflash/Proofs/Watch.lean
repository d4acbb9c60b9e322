/-
  Reflash.Proofs.Watch

  A node watched over any run: it is polled or asked to look at its clock, bytes come
  in, and flash requests are planned to fail. What came of each call is written down,
  and from that alone one can tell when something last reached the reassembler. A
  node that has been left alone for its whole limit since then tries to leave at the
  next look at its clock, and leaves if there is an application; but once there was
  none to leave for, the limit is gone, and what is installed later does not bring it
  back.
-/
import Reflash.Proofs.Polling

namespace Reflash

namespace Receipt

/-- Whether a packet got as far as the reassembler. -/
def isRouted : Receipt → Bool
  | refused _ _ | accepted _ | spoiled _ _ | delivered _ _ => true
  | _ => false

end Receipt

/-! ## Calls -/

/-- What a node is called for. -/
inductive Call where
  | poll
  /-- Only to look at its clock. -/
  | check
  deriving DecidableEq

/-- A call that was made, with what was received and what came of it. -/
structure Report where
  now : Nat
  receipt? : Option Receipt
  outcome : Except Fault Unit

namespace Report

/-- Whether a packet got as far as the reassembler in the call. -/
def isHeard (report : Report) : Bool :=
  report.receipt?.any Receipt.isRouted

/-- The fault that the call ended with, if it ended with one. -/
def fault? (report : Report) : Option Fault :=
  Fault.ofResult? report.outcome

/-- The node wanted to leave and was refused. -/
def Refused (report : Report) : Prop :=
  ∃ reason, report.fault? = some reason ∧ Installer.Refusal reason

theorem fault?_eq_some {report : Report} {reason : Fault} :
    report.fault? = some reason ↔ report.outcome = .error reason :=
  Fault.ofResult?_eq_some

/-- When a packet last got as far as the reassembler or, if none has, when the first call was made.
The latest report comes first. -/
def lastHeard : List Report → Option Nat
  | [] => none
  | report :: earlier =>
    some (if report.isHeard then report.now else (lastHeard earlier).getD report.now)

end Report

namespace Node

variable {τ : Type} [Transport τ] {g : Geometry} {node : Node τ} {now : Nat} {call : Call}

/-- A call of a node, with what it comes to. -/
def called (g : Geometry) (node : Node τ) (now : Nat) :
    Call → Procedure (Except Fault Unit × Node τ)
  | .poll => do
    let (outcome, node) ← node.poll g now
    pure (outcome.map fun _ => (), node)
  | .check => node.checkInactivity now

/-- What is received in a call. -/
def received? (node : Node τ) : Call → Option Receipt
  | .poll => some node.endpoint.receive.1
  | .check => none

/-- What a call leaves of the node's end of the link, but for an answer. -/
def listened (node : Node τ) : Call → Endpoint τ
  | .poll => node.endpoint.receive.2
  | .check => node.endpoint

/-- The node looks at its clock in this call: it is called for that, or nothing that it receives is
a sign of life. -/
def Looks (node : Node τ) (call : Call) : Prop :=
  ∀ receipt, node.received? call = some receipt → (receipt.unheard?).isSome

theorem looks_check (node : Node τ) : node.Looks .check := nofun

theorem Looks.unrouted (h : node.Looks call) :
    (node.received? call).any Receipt.isRouted = false := by
  cases call with
  | check => rfl
  | poll =>
    have hunheard := h _ rfl
    rw [received?, Option.any_some]
    revert hunheard
    cases node.endpoint.receive.1 with
    | silence | cutShort | linkFailed | malformed | corrupt | unrouted => exact fun _ => rfl
    | refused | accepted | spoiled | delivered => exact nofun

/-- A call in which the node looks at its clock: it stays, or it tries to leave. -/
theorem called_looks (g : Geometry) (node : Node τ) (now : Nat) {call : Call}
    (hlooks : node.Looks call) :
    ∃ next : Node τ, next.lastActivity = some (node.lastActivity.getD now)
      ∧ next.config = node.config
      ∧ node.called g now call
        = if node.silence now < node.config.timeout then pure (.ok (), next)
          else node.installer.failSafeJump >>= fun reason =>
            pure (.error reason, next.told reason) := by
  cases call with
  | check =>
    refine ⟨node.awake now, rfl, rfl, ?_⟩
    by_cases hprompt : node.silence now < node.config.timeout
    · rw [if_pos hprompt]
      exact checkInactivity_prompt hprompt
    · rw [if_neg hprompt]
      exact checkInactivity_overdue hprompt
  | poll =>
    -- Of what a poll may come to, only the case without a sign of life is left.
    have hpolls := poll_polls g node now
    have hunheard := hlooks _ rfl
    rw [called]
    generalize node.endpoint.receive.1 = receipt at hpolls hunheard
    generalize node.endpoint.receive.2 = endpoint at hpolls
    generalize node.poll g now = poll at hpolls ⊢
    cases hpolls with
    | @unheard _ event _ =>
      refine ⟨{ node with endpoint }.awake now, rfl, rfl, ?_⟩
      by_cases hprompt : node.silence now < node.config.timeout
      · have hprompt' : { node with endpoint }.silence now < node.config.timeout := hprompt
        rw [if_pos hprompt, checkThen_prompt hprompt']
        rfl
      · have hprompt' : ¬{ node with endpoint }.silence now < node.config.timeout := hprompt
        rw [if_neg hprompt, checkThen_overdue hprompt', bind_assoc]
        rfl
    | absorbed absorbed unanswered =>
      cases receipt with
      | refused packet fault => cases hunheard
      | accepted packet => cases hunheard
      | _ => exact absorbed.elim
    | linkFailed error => cases hunheard
    | spoiled packet datagram => cases hunheard
    | elsewhere packet datagram elsewhere => cases hunheard
    | handled packet datagram here => cases hunheard

/-- A call in which it does not: whatever comes of it, the node was not refused to leave. -/
theorem run_called_busy (now : Nat) {call : Call} (hlooks : ¬node.Looks call) (device : Device g) :
    let after := (node.called g now call).run device
    (∀ reason, after.1.1 = .error reason → ¬Installer.Refusal reason)
      ∧ after.1.2.config = node.config
      ∧ after.1.2.lastActivity = some (if (node.received? call).any Receipt.isRouted then now
        else node.lastActivity.getD now) := by
  cases call with
  | check => exact absurd nofun hlooks
  | poll =>
    have hpolls := poll_polls g node now
    have hheard : (node.endpoint.receive.1.unheard?).isSome = false := by
      refine Bool.eq_false_iff.2 fun hunheard => hlooks ?_
      rintro _ ⟨⟩
      exact hunheard
    rw [called, Procedure.run_bind, received?, Option.any_some]
    generalize node.endpoint.receive.1 = receipt at hpolls hheard ⊢
    generalize node.endpoint.receive.2 = endpoint at hpolls
    generalize node.poll g now = poll at hpolls ⊢
    cases hpolls with
    | unheard unheard =>
      rw [unheard] at hheard
      cases hheard
    | absorbed absorbed unanswered =>
      refine ⟨nofun, rfl, ?_⟩
      cases receipt with
      | refused packet fault => rfl
      | accepted packet => rfl
      | _ => exact absorbed.elim
    | linkFailed error =>
      refine ⟨?_, rfl, rfl⟩
      rintro _ ⟨⟩
      nofun
    | spoiled packet datagram => exact ⟨nofun, rfl, rfl⟩
    | elsewhere packet datagram elsewhere => exact ⟨nofun, rfl, rfl⟩
    | handled packet datagram here =>
      rw [Procedure.run_bind]
      exact ⟨nofun, rfl, rfl⟩

/-- A call takes the node's note of the last sign of life on. -/
theorem run_called_activity (node : Node τ) (now : Nat) (call : Call) (device : Device g) :
    ((node.called g now call).run device).1.2.lastActivity
      = some (if (node.received? call).any Receipt.isRouted then now
        else node.lastActivity.getD now) := by
  by_cases hlooks : node.Looks call
  · obtain ⟨next, hactivity, -, hcalled⟩ := called_looks g node now hlooks
    rw [hlooks.unrouted, if_neg Bool.false_ne_true, hcalled]
    by_cases hprompt : node.silence now < node.config.timeout
    · rw [if_pos hprompt]
      exact hactivity
    · rw [if_neg hprompt, Procedure.run_bind]
      exact (told_lastActivity _ _).trans hactivity
  · exact (run_called_busy now hlooks device).2.2

/-- A call that is no refusal leaves the limit as it is, and a refusal lifts it. -/
theorem run_called_limit (node : Node τ) (now : Nat) (call : Call) (device : Device g) :
    let after := (node.called g now call).run device
    let report : Report := ⟨now, node.received? call, after.1.1⟩
    ¬report.Refused ∧ after.1.2.config = node.config
      ∨ report.Refused ∧ after.1.2.config.timeout = NodeConfig.never := by
  by_cases hlooks : node.Looks call
  · obtain ⟨next, -, hconfig, hcalled⟩ := called_looks g node now hlooks
    rw [hcalled]
    by_cases hprompt : node.silence now < node.config.timeout
    · rw [if_pos hprompt]
      exact .inl ⟨nofun, hconfig⟩
    -- It tries to leave: a jump that came back leaves the limit, a refusal lifts it.
    · have hreason := ((Installer.failSafeJump_spares node.installer).ensures device).2
      rw [if_neg hprompt, Procedure.run_bind, Procedure.run_pure]
      rcases hreason with hreturned | hrefused
      · refine .inl ⟨?_, ?_⟩
        · rintro ⟨reason, heq, hrefused⟩
          cases heq
          exact hrefused.ne_bootloaderFailure hreturned
        · rw [told, if_pos hreturned]
          exact hconfig
      · refine .inr ⟨⟨_, rfl, hrefused⟩, ?_⟩
        rw [told, if_neg hrefused.ne_bootloaderFailure]
  · obtain ⟨hrefusal, hconfig, -⟩ := run_called_busy now hlooks device
    refine .inl ⟨?_, hconfig⟩
    rintro ⟨reason, houtcome, hrefused⟩
    exact hrefusal reason (Report.fault?_eq_some.1 houtcome) hrefused

end Node

/-! ## Runs -/

/-- What may happen to a node and its device. -/
inductive Occurrence (τ : Type) where
  /-- Bytes come in, or whatever else a link goes through. -/
  | arrival (link : τ)
  /-- A flash request is planned to fail, or none is any more. -/
  | mishap (fault : Option PlannedFault)
  | call (call : Call) (now : Nat)

/-- A node, its device, and the reports of all calls so far, the latest first. -/
structure Watch (τ : Type) (g : Geometry) where
  node : Node τ
  device : Device g
  reports : List Report := []

namespace Watch

variable {τ : Type} {g : Geometry} {watch : Watch τ g} {call : Call} {now limit : Nat}

/-- Milliseconds since something was last heard. -/
def unheardFor (watch : Watch τ g) (now : Nat) : Nat :=
  now - (Report.lastHeard watch.reports).getD now

/-- The node knows when something was last heard, and keeps to its limit until it has been refused
to leave. -/
structure Clocked (limit : Nat) (watch : Watch τ g) : Prop where
  activity_eq : watch.node.lastActivity = Report.lastHeard watch.reports
  standing : (∀ report ∈ watch.reports, ¬report.Refused) → watch.node.config.timeout = limit
  lifted : (∃ report ∈ watch.reports, report.Refused) →
    watch.node.config.timeout = NodeConfig.never

theorem Clocked.silence_eq (h : watch.Clocked limit) (now : Nat) :
    watch.node.silence now = watch.unheardFor now := by
  rw [Node.silence, unheardFor, h.activity_eq]

/-- A node that has been refused takes all the time there is. -/
theorem Clocked.prompt_of_refused (h : watch.Clocked limit)
    (hrefused : ∃ report ∈ watch.reports, report.Refused)
    (hshort : watch.unheardFor now < NodeConfig.never) :
    watch.node.silence now < watch.node.config.timeout := by
  rw [h.silence_eq, h.lifted hrefused]
  exact hshort

variable [Transport τ]

def step (watch : Watch τ g) : Occurrence τ → Watch τ g
  | .arrival link => { watch with node.endpoint.link := link }
  | .mishap fault => { watch with device.flash.fault := fault }
  | .call call now =>
    let ((outcome, node), device) := (watch.node.called g now call).run watch.device
    { node, device
      reports := ⟨now, watch.node.received? call, outcome⟩ :: watch.reports }

theorem step_poll (watch : Watch τ g) (now : Nat) :
    watch.step (.call .poll now)
      = (let poll := (watch.node.poll g now).run watch.device
        { node := poll.1.2, device := poll.2
          reports := ⟨now, some watch.node.endpoint.receive.1, poll.1.1.map fun _ => ()⟩
            :: watch.reports }) := by
  simp only [step, Node.called, Procedure.run_bind]
  rfl

def run (watch : Watch τ g) (occurrences : List (Occurrence τ)) : Watch τ g :=
  occurrences.foldl step watch

/-- A poll at each of the given times. -/
def pollEach (watch : Watch τ g) (times : List Nat) : Watch τ g :=
  watch.run (times.map (.call .poll))

/-! ## The clock over a run -/

theorem Clocked.step (h : watch.Clocked limit) (occurrence : Occurrence τ) :
    (watch.step occurrence).Clocked limit := by
  cases occurrence with
  | arrival link => exact ⟨h.activity_eq, h.standing, h.lifted⟩
  | mishap fault => exact ⟨h.activity_eq, h.standing, h.lifted⟩
  | call call now =>
    have hactivity := Node.run_called_activity watch.node now call watch.device
    have hlimit := Node.run_called_limit watch.node now call watch.device
    rw [h.activity_eq] at hactivity
    refine ⟨hactivity, ?_, ?_⟩
    · intro hnone
      obtain ⟨hlatest, hearlier⟩ := List.forall_mem_cons.1 hnone
      rcases hlimit with ⟨-, hconfig⟩ | ⟨hrefused, -⟩
      · exact (congrArg NodeConfig.timeout hconfig).trans (h.standing hearlier)
      · exact absurd hrefused hlatest
    -- The refusal was an earlier one and the limit is still lifted, or it is lifted now.
    · rintro ⟨report, hmem, hrefused⟩
      rcases hlimit with ⟨hlatest, hconfig⟩ | ⟨-, hlifted⟩
      · rcases List.mem_cons.1 hmem with rfl | hmem
        · exact absurd hrefused hlatest
        · exact (congrArg NodeConfig.timeout hconfig).trans (h.lifted ⟨report, hmem, hrefused⟩)
      · exact hlifted

/-- A node that has not been called yet keeps this up over any run. -/
theorem run_clocked {node : Node τ} (hfresh : node.lastActivity = none) (device : Device g)
    (occurrences : List (Occurrence τ)) :
    (run ⟨node, device, []⟩ occurrences).Clocked node.config.timeout := by
  have hstart : (⟨node, device, []⟩ : Watch τ g).Clocked node.config.timeout :=
    ⟨hfresh, fun _ => rfl, fun ⟨_, hmem, _⟩ => absurd hmem List.not_mem_nil⟩
  -- By induction on what happens, for any node that keeps to its clock so far.
  generalize (⟨node, device, []⟩ : Watch τ g) = watch at hstart ⊢
  induction occurrences generalizing watch with
  | nil => exact hstart
  | cons occurrence occurrences ih => exact ih _ (hstart.step occurrence)

/-! ## Leaving -/

/-- A node whose limit is up, and that finds an application, jumps to it. -/
theorem jumps_called (hlooks : watch.node.Looks call)
    (hoverdue : ¬watch.node.silence now < watch.node.config.timeout)
    (hinstalled : (watch.node.installer.checkInstalled.run.run watch.device.spared).1 = .ok ())
    (hmeets : ¬(watch.node.called g now call).Meets watch.device) :
    (watch.node.called g now call).jumps watch.device = [.application]
      ∧ ((watch.node.called g now call).run watch.device).1.1 = .error .bootloaderFailure := by
  obtain ⟨next, -, -, hcalled⟩ := Node.called_looks g watch.node now hlooks
  rw [if_neg hoverdue] at hcalled
  -- A fault that is not met in the call is not met on the way to the application either.
  have hunmet : ¬watch.node.installer.failSafeJump.Meets watch.device := by
    rintro ⟨hplanned, hmet⟩
    refine hmeets ⟨hplanned, ?_⟩
    rw [hcalled, Procedure.run_bind]
    exact hmet
  have hreturned : (watch.node.installer.failSafeJump.run watch.device).1
      = .bootloaderFailure := by
    rw [← congrArg Prod.fst (Procedure.run_of_not_meets hunmet)]
    exact Installer.run_failSafeJump_ok hinstalled
  constructor
  · rw [hcalled, Procedure.jumps_bind, Installer.jumps_failSafeJump, hreturned]
    rfl
  · rw [hcalled, Procedure.run_bind, hreturned]
    rfl

/-- A node whose limit is not up makes no request. -/
theorem trace_called (hlooks : watch.node.Looks call)
    (hprompt : watch.node.silence now < watch.node.config.timeout) :
    (watch.node.called g now call).trace watch.device = []
      ∧ ((watch.node.called g now call).run watch.device).1.1 = .ok () := by
  obtain ⟨next, -, -, hcalled⟩ := Node.called_looks g watch.node now hlooks
  rw [if_pos hprompt] at hcalled
  rw [hcalled]
  exact ⟨rfl, rfl⟩

/-- The fail safe jump over any run of a node. As long as the node has not been refused to leave,
the next look at its clock makes it jump to the application, if one is found on flash, nothing
fails while it looks, and nothing has been heard for as long as the limit says. Once it has been
refused for want of an intact application, no look at its clock makes it do anything until the
longest time that a clock can show has gone by. -/
theorem leaves_unless_refused {node : Node τ} (hfresh : node.lastActivity = none)
    (device : Device g) (occurrences : List (Occurrence τ)) (call : Call) (now : Nat) :
    let watch := run ⟨node, device, []⟩ occurrences
    let next := watch.node.called g now call
    watch.node.Looks call →
      ((∀ report ∈ watch.reports, ¬report.Refused) →
        (watch.node.installer.checkInstalled.run.run watch.device.spared).1 = .ok () →
        node.config.timeout ≤ watch.unheardFor now → ¬next.Meets watch.device →
        next.jumps watch.device = [.application]
          ∧ (next.run watch.device).1.1 = .error .bootloaderFailure)
      ∧ ((∃ report ∈ watch.reports, report.fault? = some .flashVerificationFailed) →
        watch.unheardFor now < NodeConfig.never →
        next.trace watch.device = [] ∧ (next.run watch.device).1.1 = .ok ()) := by
  intro watch next hlooks
  have hclocked : watch.Clocked node.config.timeout := run_clocked hfresh device occurrences
  refine ⟨?_, ?_⟩
  · intro hstanding hinstalled hsilent hmeets
    refine jumps_called hlooks ?_ hinstalled hmeets
    rw [hclocked.silence_eq, hclocked.standing hstanding]
    exact Nat.not_lt.2 hsilent
  · rintro ⟨report, hmem, hrefused⟩ hshort
    exact trace_called hlooks
      (hclocked.prompt_of_refused ⟨report, hmem, _, hrefused, .notIntact⟩ hshort)

/-! ## An update that comes too late -/

/-- What a pocket-sized part is updated to. -/
def pocketUpdate : List Datagram :=
  [.pack .firmwareMetadata 0xFFFF0000 none
    (Manifest.encode { size := 4, crc := Crc32.padded [0x01, 0x02, 0x03, 0x04] }),
    .pack .firmwareChunk 0 none [0x01, 0x02, 0x03, 0x04]]

/-- A node on which nothing is installed. An update waits on its link. -/
def unprovided : Node Loopback where
  endpoint.link := { capacity := 1024, incoming := (pocketUpdate.flatMap Datagram.frames).flatten }
  installer := .ready Pocket.layout .idle
  config.timeout := 500

/-- The node takes the update before it looks at its clock. -/
def patient : Watch Loopback Pocket.geometry :=
  run ⟨unprovided, {}, []⟩ (List.replicate 4 (.call .poll 0))

/-- The node wants to leave before it takes the update. -/
def hasty : Watch Loopback Pocket.geometry :=
  run ⟨unprovided, {}, []⟩
    ([.call .check 0, .call .check 500] ++ List.replicate 4 (.call .poll 600))

theorem patient_outcome :
    patient.reports.map Report.fault? = List.replicate 4 none
      ∧ Fault.ofResult? (patient.node.installer.checkInstalled.run.run patient.device.spared).1
        = none
      ∧ patient.device.flash.fault = none ∧ patient.unheardFor 500 = 500 := by
  decide +kernel

theorem hasty_outcome :
    hasty.reports.map Report.fault?
        = List.replicate 4 none ++ [some .flashVerificationFailed, none]
      ∧ Fault.ofResult? (hasty.node.installer.checkInstalled.run.run hasty.device.spared).1 = none
      ∧ hasty.device.flash.fault = none ∧ hasty.unheardFor 2000 = 1400 := by
  decide +kernel

theorem ok_of_ofResult? {result : Except Fault Unit} (h : Fault.ofResult? result = none) :
    result = .ok () := by
  cases result with
  | ok _ => rfl
  | error fault => cases h

/-- One of the calls of the hasty node was refused. -/
theorem hasty_refused :
    ∃ report ∈ hasty.reports, report.fault? = some .flashVerificationFailed := by
  refine List.mem_map.1 ?_
  rw [hasty_outcome.1]
  decide

theorem leaves_unless_refused_pocket :
    (patient.node.called Pocket.geometry 500 .check).jumps patient.device = [.application]
      ∧ (hasty.node.called Pocket.geometry 2000 .check).trace hasty.device = [] := by
  obtain ⟨hcalm, hinstalled, hfault, hsilent⟩ := patient_outcome
  obtain ⟨-, -, -, hshort⟩ := hasty_outcome
  constructor
  · refine ((leaves_unless_refused rfl _ _ .check 500 (Node.looks_check _)).1 ?_
      (ok_of_ofResult? hinstalled) (Nat.le_of_eq hsilent.symm) fun hmeets => hmeets.1 hfault).1
    rintro report hmem ⟨reason, hreason, -⟩
    have hnone : report.fault? ∈ patient.reports.map Report.fault? := List.mem_map_of_mem hmem
    rw [hcalm, hreason] at hnone
    cases List.eq_of_mem_replicate hnone
  · refine ((leaves_unless_refused rfl _ _ .check 2000 (Node.looks_check _)).2 hasty_refused ?_).1
    exact Nat.lt_of_le_of_lt (Nat.le_of_eq hshort) (by decide)

/-- A node that was refused does not leave for what has been installed since, though nothing was
heard for as long as its limit says. -/
theorem refused_for_good :
    (∃ report ∈ hasty.reports, report.fault? = some .flashVerificationFailed)
      ∧ (hasty.node.installer.checkInstalled.run.run hasty.device.spared).1 = .ok ()
      ∧ hasty.device.flash.fault = none
      ∧ unprovided.config.timeout ≤ hasty.unheardFor 2000
      ∧ (hasty.node.called Pocket.geometry 2000 .check).jumps hasty.device = [] := by
  obtain ⟨-, hinstalled, hfault, hsilent⟩ := hasty_outcome
  have hclocked : hasty.Clocked unprovided.config.timeout := run_clocked rfl {} _
  obtain ⟨report, hmem, hreason⟩ := hasty_refused
  have hprompt : hasty.node.silence 2000 < hasty.node.config.timeout :=
    hclocked.prompt_of_refused ⟨report, hmem, _, hreason, .notIntact⟩
      (Nat.lt_of_le_of_lt (Nat.le_of_eq hsilent) (by decide))
  have htrace : (hasty.node.called Pocket.geometry 2000 .check).trace hasty.device = [] :=
    (trace_called (Node.looks_check _) hprompt).1
  refine ⟨hasty_refused, ok_of_ofResult? hinstalled, hfault,
    Nat.le_trans (by decide) (Nat.le_of_eq hsilent.symm), ?_⟩
  rw [Procedure.jumps, htrace]
  rfl

end Watch

end Reflash
