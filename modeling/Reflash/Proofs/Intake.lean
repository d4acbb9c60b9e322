/-
  Reflash.Proofs.Intake

  What one frame does to the datagram under way, whatever the frame is. A packet that
  is taken repeats the header, starts a datagram, or fills an empty slot of the one
  under way. A datagram that is complete is not kept, whether its checksum is right or
  wrong; so one that is under way always lacks something, and has as many slots as its
  header says.
-/
import Reflash.Link.Endpoint

namespace Reflash

namespace Receipt

/-- Whether the reassembler took a packet. -/
def isTaken : Receipt → Bool
  | accepted _ | spoiled _ _ | delivered _ _ => true
  | _ => false

/-- The header that was taken, if what was taken is one. -/
def header? : Receipt → Option Datagram.Header
  | accepted packet | spoiled packet _ | delivered packet _ =>
    if packet.kind = .header then (Datagram.Header.decode packet.used).toOption else none
  | _ => none

theorem header?_accepted {packet : Packet} {header : Datagram.Header}
    (hkind : packet.kind = .header)
    (hdecode : Datagram.Header.decode packet.used = .ok header) :
    (accepted packet).header? = some header := by
  rw [header?, if_pos hkind, hdecode]
  rfl

end Receipt

namespace Assembly

variable {assembly next : Assembly} {packet : Packet} {receipt : Receipt}

/-! ## Packets that are taken -/

/-- What a packet that is taken leaves under way. -/
inductive Routed (assembly : Assembly) (packet : Packet) : Assembly → Prop
  /-- The header of the datagram under way comes again. -/
  | repeated {header : Datagram.Header} (kind_eq : packet.kind = .header)
      (decode_eq : Datagram.Header.decode packet.used = .ok header)
      (held : assembly.holds header.id = true) : Routed assembly packet assembly
  | started {header : Datagram.Header} (kind_eq : packet.kind = .header)
      (decode_eq : Datagram.Header.decode packet.used = .ok header)
      (other : assembly.holds header.id = false) (check_eq : header.check = .ok ()) :
      Routed assembly packet (some (.awaiting header))
  | filled {part : Datagram} {place : Nat} (kind_eq : packet.kind = .data)
      (under_way : assembly = some part) (empty : part.slots[place]? = some none) :
      Routed assembly packet
        (some { part with slots := part.slots.set place (some packet.used) })

theorem acceptHeader_routed (hkind : packet.kind = .header)
    (h : assembly.acceptHeader packet = .ok next) : Routed assembly packet next := by
  rw [acceptHeader] at h
  cases hdecode : Datagram.Header.decode packet.used with
  | error fault =>
    rw [hdecode] at h
    cases h
  | ok header =>
    rw [hdecode] at h
    cases hheld : assembly.holds header.id with
    | true =>
      have hsame : (.ok assembly : Except Fault Assembly) = .ok next := by
        rw [← h]
        exact (if_pos hheld).symm
      cases hsame
      exact .repeated hkind hdecode hheld
    | false =>
      have hstart : (header.check >>= fun _ => .ok (some (.awaiting header))) = .ok next := by
        rw [← h]
        exact (if_neg (ne_true_of_eq_false hheld)).symm
      cases hcheck : header.check with
      | error fault =>
        rw [hcheck] at hstart
        cases hstart
      | ok _ =>
        rw [hcheck] at hstart
        cases hstart
        exact .started hkind hdecode hheld hcheck

theorem acceptData_routed (hkind : packet.kind = .data)
    (h : assembly.acceptData packet = .ok next) : Routed assembly packet next := by
  cases assembly with
  | none => cases h
  | some part =>
    simp only [acceptData] at h
    -- A packet of another datagram fills nothing, nor does one in the place of the header.
    split at h
    · cases h
    split at h
    · cases h
    split at h
    next hempty =>
      cases h
      exact .filled hkind rfl hempty
    next => cases h

theorem route?_routed (h : assembly.route? packet = some (.ok next)) :
    Routed assembly packet next := by
  rw [route?] at h
  cases hkind : packet.kind with
  | header =>
    simp only [hkind] at h
    split at h
    · exact acceptHeader_routed hkind (Option.some.inj h)
    · cases h
  | data =>
    simp only [hkind] at h
    exact acceptData_routed hkind (Option.some.inj h)
  | _ =>
    simp only [hkind] at h
    cases h

/-! ## Frames -/

/-- What receiving does to the datagram under way, by what was received. -/
inductive Advances (assembly : Assembly) : Receipt → Assembly → Prop
  | kept {receipt : Receipt} (untaken : receipt.isTaken = false) :
      Advances assembly receipt assembly
  | accepted {packet : Packet} {next : Assembly} (routed : Routed assembly packet next)
      (incomplete : next.isComplete = false) : Advances assembly (.accepted packet) next
  | spoiled {packet : Packet} {next : Assembly} (routed : Routed assembly packet next)
      (complete : next.isComplete = true) :
      Advances assembly (.spoiled packet next.datagram) none
  | delivered {packet : Packet} {next : Assembly} (routed : Routed assembly packet next)
      (complete : next.isComplete = true) :
      Advances assembly (.delivered packet next.datagram) none

/-- Silence changes nothing. -/
theorem Advances.silence (assembly : Assembly) : Advances assembly .silence assembly :=
  .kept rfl

theorem take_advances (assembly : Assembly) (frame : Bytes) :
    Advances assembly (assembly.take frame).1 (assembly.take frame).2 := by
  rw [take]
  cases Packet.ofFrame frame with
  | error fault => exact .kept rfl
  | ok packet =>
    simp only
    split
    · exact .kept rfl
    cases hroute : assembly.route? packet with
    | none => exact .kept rfl
    | some result =>
      cases result with
      | error fault => exact .kept rfl
      | ok next =>
        have hrouted := route?_routed hroute
        cases hcomplete : next.isComplete with
        | false =>
          simp only [hcomplete]
          exact .accepted hrouted hcomplete
        | true =>
          simp only [hcomplete]
          cases next.verify with
          | error fault => exact .spoiled hrouted hcomplete
          | ok _ => exact .delivered hrouted hcomplete

end Assembly

theorem Endpoint.receive_advances {τ : Type} [Transport τ] (endpoint : Endpoint τ) :
    endpoint.assembly.Advances endpoint.receive.1 endpoint.receive.2.assembly := by
  rw [receive]
  generalize Transport.readFrame endpoint.link = reading
  obtain ⟨intake, skipped, link⟩ := reading
  cases intake with
  | frame bytes => exact Assembly.take_advances endpoint.assembly bytes
  | dry => exact .kept rfl
  | cutShort filled => exact .kept rfl
  | failed error => exact .kept rfl

namespace Assembly

variable {assembly next : Assembly} {packet : Packet} {receipt : Receipt}

/-- What is not taken changes nothing. -/
theorem Advances.kept_of_untaken (h : Advances assembly receipt next)
    (huntaken : receipt.isTaken = false) : next = assembly := by
  cases h with
  | kept untaken => rfl
  | accepted | spoiled | delivered => cases huntaken

/-- What is under way is never complete. -/
theorem Advances.incomplete (h : Advances assembly receipt next)
    (hbefore : assembly.isComplete = false) : next.isComplete = false := by
  cases h with
  | kept untaken => exact hbefore
  | accepted routed incomplete => exact incomplete
  | spoiled routed complete => rfl
  | delivered routed complete => rfl

/-! ## Slots -/

/-- What is under way has a slot for each data packet that its header counts. -/
def Fitting (assembly : Assembly) : Prop :=
  ∀ part, assembly = some part → part.slots.length = part.header.packets.toNat

theorem fitting_none : Fitting none :=
  nofun

theorem Routed.fitting (h : Routed assembly packet next) (hbefore : assembly.Fitting) :
    next.Fitting := by
  cases h with
  | repeated => exact hbefore
  | started kind_eq decode_eq other check_eq =>
    rintro _ ⟨⟩
    exact List.length_replicate
  | filled kind_eq under_way empty =>
    rintro _ ⟨⟩
    rw [List.length_set]
    exact hbefore _ under_way

theorem Advances.fitting (h : Advances assembly receipt next) (hbefore : assembly.Fitting) :
    next.Fitting := by
  cases h with
  | kept untaken => exact hbefore
  | accepted routed incomplete => exact routed.fitting hbefore
  | spoiled routed complete => exact fitting_none
  | delivered routed complete => exact fitting_none

/-! ## Headers -/

/-- The header of what is under way was under way before, or has just been taken. -/
theorem Routed.header_of (h : Routed assembly packet next) {datagram : Datagram}
    (hnext : next = some datagram) :
    (∃ part, assembly = some part ∧ part.header = datagram.header)
      ∨ packet.kind = .header ∧ Datagram.Header.decode packet.used = .ok datagram.header := by
  cases h with
  | repeated => exact .inl ⟨datagram, hnext, rfl⟩
  | started kind_eq decode_eq =>
    cases hnext
    exact .inr ⟨kind_eq, decode_eq⟩
  | filled kind_eq under_way =>
    cases hnext
    exact .inl ⟨_, under_way, rfl⟩

theorem exists_of_isComplete (h : assembly.isComplete = true) :
    ∃ datagram, assembly = some datagram := by
  cases assembly with
  | none => cases h
  | some datagram => exact ⟨datagram, rfl⟩

/-- What is known of the headers that were under way, and of one that has just been taken, is known
of the header that is under way. -/
theorem Routed.known {known : Datagram.Header → Prop} (h : Routed assembly packet next)
    (hbefore : ∀ part, assembly = some part → known part.header)
    (htaken : ∀ header, (Receipt.accepted packet).header? = some header → known header) :
    ∀ part, next = some part → known part.header := by
  intro part hpart
  rcases h.header_of hpart with ⟨earlier, hearlier, heq⟩ | ⟨hkind, hdecode⟩
  · exact heq ▸ hbefore earlier hearlier
  · exact htaken _ (Receipt.header?_accepted hkind hdecode)

/-- Every header that ever is under way, or is part of a datagram that completes, is one that was
taken. -/
theorem Advances.headers {known : Datagram.Header → Prop} (h : Advances assembly receipt next)
    (hbefore : ∀ part, assembly = some part → known part.header)
    (htaken : ∀ header, receipt.header? = some header → known header) :
    (∀ part, next = some part → known part.header)
      ∧ (∀ packet datagram, receipt = .spoiled packet datagram → known datagram.header)
      ∧ ∀ packet datagram, receipt = .delivered packet datagram → known datagram.header := by
  cases h with
  | kept untaken =>
    refine ⟨hbefore, ?_, ?_⟩
    · rintro packet datagram rfl
      cases untaken
    · rintro packet datagram rfl
      cases untaken
  | accepted routed incomplete => exact ⟨routed.known hbefore htaken, nofun, nofun⟩
  -- A datagram that completes was under way for the moment in which its last packet was taken.
  | spoiled routed complete =>
    obtain ⟨datagram, rfl⟩ := exists_of_isComplete complete
    have hknown := routed.known hbefore htaken datagram rfl
    refine ⟨nofun, ?_, nofun⟩
    rintro _ _ ⟨⟩
    exact hknown
  | delivered routed complete =>
    obtain ⟨datagram, rfl⟩ := exists_of_isComplete complete
    have hknown := routed.known hbefore htaken datagram rfl
    refine ⟨nofun, nofun, ?_⟩
    rintro _ _ ⟨⟩
    exact hknown

end Assembly

end Reflash
