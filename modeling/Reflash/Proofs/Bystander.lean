/-
  Reflash.Proofs.Bystander

  A node that overhears the traffic of others. As long as every header that it takes
  names another node, whatever comes off the link, polling it changes neither the
  installer nor the device. It is not quite silent, though: the address is looked at
  when a datagram is handed on, and a datagram with a wrong checksum never is, so it
  is answered by every node that hears it.
-/
import Reflash.Proofs.Intake
import Reflash.Proofs.Watch

namespace Reflash

/-! ## Datagrams for others -/

/-- The header names a node, and not this one. -/
def Datagram.Header.Foreign (ours : UInt8) (header : Datagram.Header) : Prop :=
  ∃ theirs, header.target = some theirs ∧ theirs ≠ ours

theorem NodeConfig.addressedElsewhere_of_foreign {config : NodeConfig} {ours : UInt8}
    (hid : config.id? = some ours) {header : Datagram.Header} (h : header.Foreign ours) :
    config.addressedElsewhere header.target = true := by
  obtain ⟨theirs, htarget, hne⟩ := h
  simp only [addressedElsewhere, hid, htarget]
  exact bne_iff_ne.2 (Ne.symm hne)

/-- What a node answers to a datagram with a wrong checksum. -/
def Receipt.nack : Receipt → Bytes
  | spoiled _ datagram => (datagram.answer (.error .crcMismatch)).frames.flatten
  | _ => []

/-- What is sent in a call in which nothing is handled. -/
def Report.nack (report : Report) : Bytes :=
  (report.receipt?.map Receipt.nack).getD []

namespace Node

variable {τ : Type} [Transport τ] {g : Geometry} {sent : τ → Bytes} {room : τ → Nat}
  {node : Node τ} {now : Nat} {ours : UInt8}

/-- What a poll leaves of a node that has overheard `receipt`. -/
structure Overheard (sent : τ → Bytes) (room : τ → Nat) (node : Node τ) (device : Device g)
    (receipt : Receipt) (next : Node τ) (after : Device g) : Prop where
  installer_eq : next.installer = node.installer
  device_eq : after = device
  id_eq : next.config.id? = node.config.id?
  sent_eq : receipt.nack.length ≤ room node.endpoint.link →
    sent next.endpoint.link = sent node.endpoint.link ++ receipt.nack
      ∧ room node.endpoint.link ≤ room next.endpoint.link + receipt.nack.length

/-- One poll of a node that does not think of leaving and is handed nothing that is meant for it. -/
theorem overhears (hsends : Transport.Sends sent room) (hid : node.config.id? = some ours)
    (hprompt : node.silence now < node.config.timeout)
    (hforeign : ∀ packet datagram, node.endpoint.receive.1 = .delivered packet datagram →
      datagram.header.Foreign ours) (device : Device g) :
    let after := (node.poll g now).run device
    Overheard sent room node device node.endpoint.receive.1 after.1.2 after.2 := by
  have hpolls := poll_polls g node now
  obtain ⟨hsent, hroom⟩ : sent node.endpoint.receive.2.link = sent node.endpoint.link
      ∧ room node.endpoint.link ≤ room node.endpoint.receive.2.link :=
    hsends.readFrame node.endpoint.link
  generalize node.endpoint.receive.1 = receipt at hpolls hforeign ⊢
  generalize node.endpoint.receive.2 = endpoint at hpolls hsent hroom
  generalize node.poll g now = poll at hpolls ⊢
  -- Most receipts are not answered at all.
  have hsilent : receipt.nack = [] → ∀ {next : Node τ}, next.endpoint = endpoint →
      receipt.nack.length ≤ room node.endpoint.link →
      sent next.endpoint.link = sent node.endpoint.link ++ receipt.nack
        ∧ room node.endpoint.link ≤ room next.endpoint.link + receipt.nack.length := by
    intro hnil next hendpoint _
    rw [hnil, hendpoint, List.append_nil]
    exact ⟨hsent, hroom⟩
  cases hpolls with
  | @unheard _ event unheard =>
    have hprompt' : { node with endpoint }.silence now < node.config.timeout := hprompt
    have hnil : receipt.nack = [] := by
      cases receipt with
      | spoiled packet datagram => cases unheard
      | _ => rfl
    rw [checkThen_prompt hprompt']
    exact ⟨rfl, rfl, rfl, hsilent hnil rfl⟩
  | linkFailed error => exact ⟨rfl, rfl, rfl, hsilent rfl rfl⟩
  | absorbed absorbed unanswered =>
    have hnil : receipt.nack = [] := by
      cases receipt with
      | spoiled packet datagram => exact absorbed.elim
      | _ => rfl
    exact ⟨rfl, rfl, rfl, hsilent hnil rfl⟩
  | spoiled packet datagram =>
    refine ⟨rfl, rfl, rfl, fun hfits => ?_⟩
    obtain ⟨hsent', hroom'⟩ := Endpoint.send_sends hsends (Nat.le_trans hfits hroom)
    exact ⟨hsent'.trans (congrArg (· ++ _) hsent), Nat.le_trans hroom hroom'⟩
  | elsewhere packet datagram elsewhere => exact ⟨rfl, rfl, rfl, hsilent rfl rfl⟩
  -- What is delivered names another node, so it is not handled.
  | handled packet datagram here =>
    rw [NodeConfig.addressedElsewhere_of_foreign hid (hforeign packet datagram rfl)] at here
    cases here

end Node

/-! ## Over any number of polls -/

namespace Watch

variable {τ : Type} [Transport τ] {g : Geometry} {sent : τ → Bytes} {room : τ → Nat} {ours : UInt8}

/-- None of the polls finds that the limit is up. -/
def Prompt : List Nat → Watch τ g → Prop
  | [], _ => True
  | now :: times, watch => watch.node.silence now < watch.node.config.timeout
      ∧ Prompt times (watch.step (.call .poll now))

instance decidablePrompt : (times : List Nat) → (watch : Watch τ g) → Decidable (Prompt times watch)
  | [], _ => isTrue trivial
  | now :: times, watch =>
    have := decidablePrompt times (watch.step (.call .poll now))
    inferInstanceAs (Decidable (_ ∧ _))

/-- Whatever header has been taken names another node. -/
def Foreign (ours : UInt8) (watch : Watch τ g) : Prop :=
  ∀ report ∈ watch.reports, ∀ receipt header, report.receipt? = some receipt →
    receipt.header? = some header → header.Foreign ours

/-- What is sent in calls in which nothing is handled. -/
def nacks (watch : Watch τ g) : Bytes :=
  watch.reports.reverse.flatMap Report.nack

theorem mem_reports_run {watch : Watch τ g} {report : Report} (h : report ∈ watch.reports)
    (occurrences : List (Occurrence τ)) : report ∈ (watch.run occurrences).reports := by
  induction occurrences generalizing watch with
  | nil => exact h
  | cons occurrence occurrences ih =>
    refine ih ?_
    cases occurrence with
    | arrival link => exact h
    | mishap fault => exact h
    | call call now => exact List.mem_cons_of_mem _ h

theorem overhears_each (hsends : Transport.Sends sent room) {watch : Watch τ g}
    (hid : watch.node.config.id? = some ours)
    (hassembly : ∀ part, watch.node.endpoint.assembly = some part → part.header.Foreign ours)
    {times : List Nat} (hprompt : Prompt times watch)
    (hforeign : (watch.pollEach times).Foreign ours) :
    let last := watch.pollEach times
    last.node.installer = watch.node.installer ∧ last.device = watch.device
      ∧ ∃ bytes, last.nacks = watch.nacks ++ bytes
        ∧ (bytes.length ≤ room watch.node.endpoint.link →
          sent last.node.endpoint.link = sent watch.node.endpoint.link ++ bytes) := by
  -- By induction on the polls; the header of what is under way is carried along.
  induction times generalizing watch with
  | nil => exact ⟨rfl, rfl, [], (List.append_nil _).symm, fun _ => (List.append_nil _).symm⟩
  | cons now times ih =>
    obtain ⟨mid, hmid⟩ : ∃ mid, mid = watch.step (.call .poll now) := ⟨_, rfl⟩
    have hlast : watch.pollEach (now :: times) = mid.pollEach times := by
      rw [hmid]
      rfl
    obtain ⟨hlimit, hprompt⟩ := hprompt
    rw [← hmid] at hprompt
    rw [hlast] at hforeign ⊢
    rw [step_poll] at hmid
    have hreports : mid.reports = ⟨now, some watch.node.endpoint.receive.1,
        ((watch.node.poll g now).run watch.device).1.1.map fun _ => ()⟩ :: watch.reports := by
      rw [hmid]
    -- What is received here names another node, and so does what is under way behind it.
    obtain ⟨hparts, -, hdelivered⟩ := watch.node.endpoint.receive_advances.headers hassembly
      fun header => hforeign _ (mem_reports_run (hreports ▸ List.mem_cons_self) _) _ header rfl
    have hoverheard : Node.Overheard sent room watch.node watch.device
        watch.node.endpoint.receive.1 mid.node mid.device := by
      rw [hmid]
      exact Node.overhears hsends hid hlimit hdelivered watch.device
    have hassembly' : mid.node.endpoint.assembly = watch.node.endpoint.receive.2.assembly := by
      rw [hmid]
      exact ((Node.poll_polls g watch.node now).keeps watch.device).2.1
    obtain ⟨hinstaller, hdevice', bytes, hnacks, hsent⟩ :=
      ih (hoverheard.id_eq.trans hid) (hassembly' ▸ hparts) hprompt hforeign
    refine ⟨hinstaller.trans hoverheard.installer_eq, hdevice'.trans hoverheard.device_eq,
      watch.node.endpoint.receive.1.nack ++ bytes, ?_, fun hroom => ?_⟩
    · rw [hnacks, nacks, hreports, List.reverse_cons, List.flatMap_append, List.append_assoc]
      exact congrArg (_ ++ ·) (congrArg (· ++ bytes) (List.append_nil _))
    · rw [List.length_append] at hroom
      obtain ⟨hsent', hroom'⟩ := hoverheard.sent_eq (by omega)
      rw [hsent (by omega), hsent', List.append_assoc]

/-- Traffic for other nodes. A node with a number of its own and nothing under way is polled any
number of times before its limit is up, and every header that it takes names another node. The
installer is as before, and so is the device, with its flash and the jumps it has made. What the
node sends, if there is room for it on its link, tells that checksums were wrong: it is the answers
to the datagrams that came out wrong, and nothing else. -/
theorem foreign_traffic (hsends : Transport.Sends sent room) {node : Node τ}
    (hid : node.config.id? = some ours) (hidle : node.endpoint.assembly = none)
    (device : Device g) {times : List Nat} (hprompt : Prompt times ⟨node, device, []⟩)
    (hforeign : (pollEach ⟨node, device, []⟩ times).Foreign ours) :
    let last := pollEach ⟨node, device, []⟩ times
    last.node.installer = node.installer ∧ last.device = device
      ∧ (last.nacks.length ≤ room node.endpoint.link →
        sent last.node.endpoint.link = sent node.endpoint.link ++ last.nacks) := by
  have hnone : ∀ part, node.endpoint.assembly = some part → part.header.Foreign ours := by
    rw [hidle]
    nofun
  obtain ⟨hinstaller, hdevice, bytes, hnacks, hsent⟩ :=
    overhears_each hsends hid hnone hprompt hforeign
  refine ⟨hinstaller, hdevice, ?_⟩
  rw [hnacks]
  exact hsent

/-- A datagram for node 2, and one whose checksum is wrong. -/
def trafficForTwo : List Datagram :=
  let whole := Datagram.pack .firmwareMetadata 7 (some 2) [0x01]
  [whole, { whole with header.crc := whole.header.crc + 1 }]

/-- Node 1 has that traffic on its link. -/
def bystander : Node Loopback where
  endpoint.link := {
    capacity := 1024
    incoming := (trafficForTwo.flatMap Datagram.frames).flatten }
  installer := .ready Pocket.layout .idle
  config.id? := some 1

/-- The node after it has taken all of the traffic. -/
def overhearing : Watch Loopback Pocket.geometry :=
  pollEach ⟨bystander, {}, []⟩ (List.replicate 4 0)

theorem overhearing_foreign : overhearing.Foreign 1 := by
  have hall : overhearing.reports.all (fun report =>
      (report.receipt?.bind Receipt.header?).all fun header => header.target == some 2) = true := by
    decide +kernel
  intro report hmem receipt header hreceipt hheader
  have htarget := List.all_eq_true.1 hall report hmem
  rw [hreceipt, Option.bind_some, hheader, Option.all_some, beq_iff_eq] at htarget
  exact ⟨2, htarget, by decide⟩

theorem foreign_traffic_bystander :
    overhearing.node.installer = bystander.installer
      ∧ overhearing.device.flash.memory = ({} : Device Pocket.geometry).flash.memory
      ∧ overhearing.node.endpoint.link.outgoing = overhearing.nacks := by
  have hroom : overhearing.nacks.length ≤ 1024 - 0 := by decide +kernel
  obtain ⟨hinstaller, hdevice, hsent⟩ := foreign_traffic Transport.loopback_sends rfl rfl {}
    (by decide +kernel) overhearing_foreign
  exact ⟨hinstaller, congrArg (·.flash.memory) hdevice, hsent hroom⟩

/-- A node answers a datagram for another one if its checksum is wrong. -/
theorem wrong_checksum_answered :
    overhearing.Foreign 1
      ∧ Prompt (List.replicate 4 0) (⟨bystander, {}, []⟩ : Watch Loopback Pocket.geometry)
      ∧ bystander.config.id? = some 1 ∧ bystander.endpoint.assembly = none
      ∧ overhearing.node.endpoint.link.outgoing.length = 2 * Packet.frameSize :=
  ⟨overhearing_foreign, by decide +kernel, rfl, rfl, by decide +kernel⟩

end Watch

end Reflash
