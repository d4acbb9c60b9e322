/-
  Reflash.Proofs.Install.Update

  A whole update. The announcement of an image and its chunks, in order, with
  datagrams in between that are refused: each part is taken, and at the end the image
  is in the active region with its record, and nothing else has changed but the
  staging region. The update is followed through its phases by what flash holds in
  each of them.
-/
import Reflash.Proofs.Install.Trial

namespace Reflash

/-! ## Traffic -/

/-- A datagram on its way to a node. -/
inductive Traffic where
  /-- A part of the update. -/
  | part (datagram : Datagram)
  /-- Anything else. -/
  | stray (datagram : Datagram)

namespace Traffic

def datagram : Traffic → Datagram
  | part datagram => datagram
  | stray datagram => datagram

/-- The parts of the update, in order. -/
def parts : List Traffic → List Datagram
  | [] => []
  | part datagram :: traffic => datagram :: parts traffic
  | stray _ :: traffic => parts traffic

/-- Whether an answer is one that a stray gets when it is refused. -/
def Refused (item : Traffic) (result : Except Fault Unit) : Prop :=
  match item with
  | part _ => True
  | stray _ => ∃ fault, result = .error fault ∧ Installer.IsRefusal fault

end Traffic

/-- Handles datagrams one after the other, and notes the answers. -/
def Installer.handleAll (g : Geometry) : List Traffic → Installer →
    Procedure (List (Traffic × Except Fault Unit) × Installer)
  | [], installer => pure ([], installer)
  | item :: traffic, installer => do
    let outcome ← installer.process g item.datagram
    let rest ← handleAll g traffic outcome.2
    pure ((item, outcome.1) :: rest.1, rest.2)

/-! ## The parts of an update -/

/-- A datagram that announces an image of this manifest. -/
def Datagram.Announces (datagram : Datagram) (manifest : Manifest) : Prop :=
  datagram.kind = .firmwareMetadata ∧ Manifest.decode datagram.data = .ok manifest

/-- Datagrams that carry these chunks in order, counted from `index`. -/
def Datagram.Carry : Nat → List Bytes → List Datagram → Prop
  | _, [], [] => True
  | index, chunk :: chunks, datagram :: datagrams =>
    (datagram.kind = .firmwareChunk ∧ datagram.id.toNat = index ∧ datagram.data = chunk)
      ∧ Carry (index + 1) chunks datagrams
  | _, _, _ => False

/-- A manifest that tells size and checksum of an image. -/
def Manifest.Describes (manifest : Manifest) (image : Bytes) : Prop :=
  manifest.size.toNat = image.length ∧ manifest.crc = Crc32.padded image

/-- Chunks of which none is empty, and all but the last are whole writes. -/
def Geometry.Chunked (g : Geometry) (chunks : List Bytes) : Prop :=
  (∀ chunk ∈ chunks, 0 < chunk.length) ∧ ∀ chunk ∈ chunks.dropLast, g.writeSize ∣ chunk.length

namespace Layout

variable {g : Geometry} {layout : Layout}

/-- What the update to an image of `length` bytes may change: its pages in the staging region,
its pages in the active region, and the record page. -/
def updateExtents (g : Geometry) (layout : Layout) (length : Nat) : List Extent :=
  ⟨layout.staging, layout.staging + Pages.span g length⟩ :: layout.installExtents g length

end Layout

/-! ## Phases -/

namespace Update

variable {g : Geometry} {layout : Layout} {image : Bytes} {manifest : Manifest}
  {before flash : Flash g}

/-- The image is in the active region with its record. -/
structure Finished (layout : Layout) (image : Bytes) (manifest : Manifest)
    (before after : Flash g) : Prop where
  changed : Flash.Changed (layout.updateExtents g image.length) before after
  installed : layout.Installed manifest after
  slice_eq : after.slice layout.active (Pages.span g image.length)
    = image ++ List.replicate (Pages.span g image.length - image.length) Flash.erasedByte

/-- How far an update has come that began on `before`, with the parts that are still to come. -/
inductive Phase (layout : Layout) (image : Bytes) (manifest : Manifest) (before : Flash g) :
    Stage → Flash g → List Datagram → Prop
  | waiting {flash : Flash g} {announcement : Datagram} {chunks : List Bytes}
      {datagrams : List Datagram} (kept : Flash.Kept before flash)
      (announces : announcement.Announces manifest) (whole : chunks.flatten = image)
      (chunked : g.Chunked chunks) (carry : Datagram.Carry 0 chunks datagrams) :
      Phase layout image manifest before .idle flash (announcement :: datagrams)
  | taking {flash : Flash g} {written index : Nat} {chunks : List Bytes}
      {datagrams : List Datagram}
      (changed : Flash.Changed (layout.updateExtents g image.length) before flash)
      (backed : (Stage.receiving manifest written index).Backed layout flash)
      (staged : flash.slice layout.staging written = image.take written)
      (rest : chunks.flatten = image.drop written) (chunked : g.Chunked chunks)
      (carry : Datagram.Carry index chunks datagrams) :
      Phase layout image manifest before (.receiving manifest written index) flash datagrams
  | finished {flash : Flash g} (finished : Finished layout image manifest before flash) :
      Phase layout image manifest before (.installed manifest) flash []

/-- Manifest and image of the update. -/
structure Fits (layout : Layout) (image : Bytes) (manifest : Manifest) : Prop where
  describes : manifest.Describes image
  admits : layout.Admits manifest

theorem Phase.backed {stage : Stage} {datagrams : List Datagram}
    (hfits : Fits layout image manifest)
    (h : Phase layout image manifest before stage flash datagrams) :
    stage.Backed layout flash := by
  cases h with
  | waiting kept announces whole chunked carry => trivial
  | taking changed backed staged rest chunked carry => exact backed
  | finished finished => exact ⟨hfits.admits, finished.installed⟩

theorem Phase.calm {stage : Stage} {datagrams : List Datagram} (hcalm : before.fault = none)
    (h : Phase layout image manifest before stage flash datagrams) :
    flash.glitch = none ∧ flash.fault = none := by
  cases h with
  | waiting kept announces whole chunked carry => exact ⟨kept.glitch_eq, kept.fault_eq hcalm⟩
  | taking changed backed staged rest chunked carry =>
    exact ⟨changed.glitch_eq, changed.fault_eq hcalm⟩
  | finished finished => exact ⟨finished.changed.glitch_eq, finished.changed.fault_eq hcalm⟩

theorem changed_of_kept {extents : List Extent} {mid after : Flash g}
    (h : Flash.Changed extents before mid) (hkept : Flash.Kept mid after) :
    Flash.Changed extents before after :=
  h.trans (hkept.changed _)

theorem Phase.kept {stage : Stage} {datagrams : List Datagram} {after : Flash g}
    (h : Phase layout image manifest before stage flash datagrams)
    (hkept : Flash.Kept flash after) :
    Phase layout image manifest before stage after datagrams := by
  cases h with
  | waiting kept announces whole chunked carry =>
    exact .waiting (kept.then_kept hkept) announces whole chunked carry
  | taking changed backed staged rest chunked carry =>
    exact .taking (changed_of_kept changed hkept) (backed.congr hkept.memory_eq)
      (by rw [hkept.slice_eq]; exact staged) rest chunked carry
  | finished finished =>
    exact .finished ⟨changed_of_kept finished.changed hkept,
      finished.installed.congr hkept.memory_eq, by rw [hkept.slice_eq]; exact finished.slice_eq⟩

/-! ## Chunks of an image -/

theorem chunked_tail {chunk : Bytes} {chunks : List Bytes} (h : g.Chunked (chunk :: chunks)) :
    g.Chunked chunks := by
  refine ⟨fun next hmem => h.1 next (List.mem_cons_of_mem _ hmem), ?_⟩
  intro next hmem
  cases chunks with
  | nil => cases hmem
  | cons second chunks =>
    apply h.2
    rw [List.dropLast_cons_of_ne_nil (List.cons_ne_nil _ _)]
    exact List.mem_cons_of_mem _ hmem

theorem chunked_head {chunk : Bytes} {chunks : List Bytes} (h : g.Chunked (chunk :: chunks))
    (hne : chunks ≠ []) : g.writeSize ∣ chunk.length := by
  apply h.2
  rw [List.dropLast_cons_of_ne_nil hne]
  exact List.mem_cons_self

/-- A chunk and the chunks behind it, cut from an image. -/
theorem drop_chunk {written : Nat} {chunk : Bytes} {chunks : List Bytes}
    (h : (chunk :: chunks).flatten = image.drop written) (hwritten : written ≤ image.length) :
    written + chunk.length + chunks.flatten.length = image.length
      ∧ image.take (written + chunk.length) = image.take written ++ chunk
      ∧ chunks.flatten = image.drop (written + chunk.length) := by
  rw [List.flatten_cons] at h
  refine ⟨?_, ?_, ?_⟩
  · have hlength := congrArg List.length h
    rw [List.length_append, List.length_drop] at hlength
    omega
  · rw [List.take_add, ← h, List.take_left]
  · rw [← List.drop_drop, ← h, List.drop_left]

/-- The last chunk is the one with no chunks behind it. -/
theorem last_iff {written : Nat} {chunk : Bytes} {chunks : List Bytes}
    (hchunked : g.Chunked (chunk :: chunks))
    (hlength : written + chunk.length + chunks.flatten.length = image.length) :
    written + chunk.length = image.length ↔ chunks = [] := by
  constructor
  · intro heq
    cases chunks with
    | nil => rfl
    | cons next chunks =>
      have hpos := hchunked.1 next (List.mem_cons_of_mem _ List.mem_cons_self)
      rw [List.flatten_cons, List.length_append] at hlength
      omega
  · rintro rfl
    rw [List.flatten_nil, List.length_nil] at hlength
    omega

/-! ## One datagram -/

theorem changed_of_rest {mid after : Flash g} {written : Nat} (hfits : Fits layout image manifest)
    (hwritten : written ≤ Pages.span g manifest.size.toNat)
    (h : Flash.Changed (layout.updateExtents g image.length) before mid)
    (h' : Flash.Changed [layout.rest g manifest written] mid after) :
    Flash.Changed (layout.updateExtents g image.length) before after := by
  refine h.trans (h'.widen ?_)
  intro extent hmem
  refine ⟨_, List.mem_cons_self, ?_⟩
  rw [List.mem_singleton.1 hmem, ← hfits.describes.1]
  simp only [Layout.rest]
  omega

/-- The announcement is taken. -/
theorem Phase.announced (hg : layout.Paged g) (hu : layout.Usable g)
    (hfits : Fits layout image manifest) (hcalm : before.fault = none)
    {device : Device g} {announcement : Datagram} {chunks : List Bytes}
    {datagrams : List Datagram} (hkept : Flash.Kept before device.flash)
    (hannounces : announcement.Announces manifest) (hwhole : chunks.flatten = image)
    (hchunked : g.Chunked chunks) (hcarry : Datagram.Carry 0 chunks datagrams) :
    (Installer.respond g layout .idle announcement).Ensures device (fun _ _ => True)
      (fun outcome device' => outcome.1 = .ok () ∧ device'.jumper = device.jumper
        ∧ Phase layout image manifest before outcome.2 device'.flash datagrams) := by
  simp only [Installer.respond]
  rw [hannounces.1]
  refine (Installer.acceptManifest_ensures hg hu hannounces.2 hfits.admits hkept.glitch_eq).imp
    (fun _ _ _ => trivial) ?_
  rintro ⟨result, stage'⟩ device' ⟨hjumper, h⟩
  cases h with
  | failed failing kept =>
    exact absurd failing (FlashTask.not_failing (hkept.fault_eq hcalm))
  | taken changed erased =>
    refine ⟨rfl, hjumper, .taking ?_ ⟨hfits.admits, hfits.admits.1, Nat.dvd_zero _, erased⟩
      ?_ hwhole hchunked hcarry⟩
    · exact changed_of_rest hfits (Nat.zero_le _) (hkept.changed _) changed
    · rw [Flash.slice_zero, List.take_zero]

/-- What the staging region holds once a chunk is staged. -/
theorem slice_staged {written : Nat} {data : Bytes} {staged : Flash g}
    (h : Installer.Staged layout manifest written data flash staged)
    (hstaged : flash.slice layout.staging written = image.take written)
    (hwritten : written ≤ Pages.span g manifest.size.toNat)
    (hfit : layout.staging + Pages.span g manifest.size.toNat ≤ g.capacity) :
    staged.slice layout.staging (Pages.span g manifest.size.toNat) = image.take written ++ data
      ++ List.replicate (Pages.span g manifest.size.toNat - written - data.length)
        Flash.erasedByte := by
  obtain ⟨room, hroom⟩ := Nat.exists_eq_add_of_le hwritten
  have hfront : staged.slice layout.staging written = flash.slice layout.staging written := by
    refine h.changed.slice_eq ?_
    intro extent hmem
    rw [List.mem_singleton.1 hmem]
    exact .inl (Nat.le_refl _)
  have hslice := h.slice_eq
  rw [hroom, Nat.add_sub_cancel_left] at hslice ⊢
  rw [Flash.slice_append _ (by omega), hslice, hfront, hstaged, List.append_assoc]

/-- What the staging region holds once the last chunk is staged. -/
theorem slice_staged_last {written : Nat} {data : Bytes} {staged : Flash g}
    (h : Installer.Staged layout manifest written data flash staged)
    (hdescribes : manifest.Describes image)
    (hstaged : flash.slice layout.staging written = image.take written)
    (htake : image.take (written + data.length) = image.take written ++ data)
    (hlast : written + data.length = manifest.size.toNat)
    (hpage : 0 < g.eraseSize)
    (hfit : layout.staging + Pages.span g manifest.size.toNat ≤ g.capacity) :
    staged.slice layout.staging (Pages.span g manifest.size.toNat)
      = image ++ List.replicate (Pages.span g image.length - image.length) Flash.erasedByte := by
  have hle := Pages.le_span hpage manifest.size.toNat
  rw [slice_staged h hstaged (by omega) hfit, ← htake, hlast, hdescribes.1, List.take_length,
    Nat.sub_sub, ← hdescribes.1, hlast]

/-- The chunk whose turn it is is not refused. -/
theorem refuseChunk_part {written index : Nat} {datagram : Datagram} {chunks : List Bytes}
    (hdescribes : manifest.Describes image) (hle : written ≤ manifest.size.toNat)
    (hid : datagram.id.toNat = index) (hchunked : g.Chunked (datagram.data :: chunks))
    (hlength : written + datagram.data.length + chunks.flatten.length = image.length) :
    Installer.refuseChunk g manifest written index datagram = none := by
  have hsize := hdescribes.1
  rw [Installer.refuseChunk_eq_none_iff hle]
  refine ⟨hid, hchunked.1 _ List.mem_cons_self, by omega, ?_⟩
  by_cases hne : chunks = []
  · exact .inl (by rw [hsize]; exact (last_iff hchunked hlength).2 hne)
  · exact .inr (chunked_head hchunked hne)

/-- The chunk whose turn it is is taken, and the last one finishes the update. -/
theorem Phase.chunk (hg : layout.Paged g) (hu : layout.Usable g)
    (hfits : Fits layout image manifest) (hcalm : before.fault = none) {device : Device g}
    {written index : Nat} {chunks : List Bytes}
    {datagram : Datagram} {datagrams : List Datagram}
    (hchanged : Flash.Changed (layout.updateExtents g image.length) before device.flash)
    (hbacked : (Stage.receiving manifest written index).Backed layout device.flash)
    (hstaged : device.flash.slice layout.staging written = image.take written)
    (hrest : chunks.flatten = image.drop written) (hchunked : g.Chunked chunks)
    (hcarry : Datagram.Carry index chunks (datagram :: datagrams)) :
    (Installer.respond g layout (.receiving manifest written index) datagram).Ensures device
      (fun _ _ => True)
      (fun outcome device' => outcome.1 = .ok () ∧ device'.jumper = device.jumper
        ∧ Phase layout image manifest before outcome.2 device'.flash datagrams) := by
  obtain ⟨hadmits, hlt, hdvd, herased⟩ := hbacked
  obtain ⟨hsize, hcrc⟩ := hfits.describes
  have hspan := hu.span_le_region hadmits.2
  have hle := Pages.le_span hu.page_pos manifest.size.toNat
  have hstaging := hu.staging_fits
  obtain _ | ⟨chunk, chunks⟩ := chunks
  · exact hcarry.elim
  obtain ⟨⟨hkind, hid, rfl⟩, hcarry⟩ := hcarry
  obtain ⟨hlength, htake, hdrop⟩ := drop_chunk hrest (by omega)
  have hlast := last_iff hchunked hlength
  -- The chunk is not refused, so it is staged; what is left is to rule out that a request fails.
  have hrefuse := refuseChunk_part hfits.describes (Nat.le_of_lt hlt) hid hchunked hlength
  simp only [Installer.respond]
  rw [hkind]
  refine (Installer.acceptChunk_ensures hg hu ⟨hadmits, hlt, hdvd, herased⟩ hrefuse
    hchanged.glitch_eq).imp (fun _ _ _ => trivial) ?_
  rintro ⟨result, stage'⟩ device' ⟨hjumper, h⟩
  have hbacked' := h.backed hu hadmits hdvd (by omega)
    ((Installer.refuseChunk_eq_none_iff (Nat.le_of_lt hlt)).1 hrefuse).2.2.2
  cases h with
  | abandoned failing changed =>
    exact absurd failing (FlashTask.not_failing (hchanged.fault_eq hcalm))
  | taken more staged =>
    refine ⟨rfl, hjumper, .taking (changed_of_rest hfits (by omega) hchanged staged.changed)
      hbacked' ?_ hdrop (chunked_tail hchunked) hcarry⟩
    have hslice := slice_staged staged hstaged (by omega) (by omega)
    rw [← Flash.slice_take device'.flash layout.staging (show written + datagram.data.length
      ≤ Pages.span g manifest.size.toNat from by omega), hslice, htake]
    refine List.take_left' ?_
    rw [List.length_append, List.length_take]
    omega
  | installed last staged changed installed slice_eq =>
    rw [slice_staged_last staged hfits.describes hstaged htake last hu.page_pos (by omega),
      hsize] at slice_eq
    have hnil : chunks = [] := hlast.1 (by omega)
    obtain rfl : datagrams = [] := by
      rw [hnil] at hcarry
      cases datagrams with
      | nil => rfl
      | cons next datagrams => exact hcarry.elim
    refine ⟨rfl, hjumper, .finished ⟨?_, installed, slice_eq⟩⟩
    refine (changed_of_rest hfits (by omega) hchanged staged.changed).trans (changed.widen ?_)
    intro extent hmem
    rw [hsize] at hmem
    exact ⟨extent, List.mem_cons_of_mem _ hmem, Nat.le_refl _, Nat.le_refl _⟩
  | unfinished last staged installing reason =>
    rcases reason with hfailing | ⟨-, hne⟩
    · exact absurd hfailing (FlashTask.not_failing
        (staged.changed.fault_eq (hchanged.fault_eq hcalm)))
    · -- What is staged is the image, so the check of the staging region passes.
      refine absurd ?_ hne
      rw [← Flash.slice_take _ _ hle,
        slice_staged_last staged hfits.describes hstaged htake last hu.page_pos (by omega), hsize,
        List.take_left, hcrc]

/-- The part whose turn it is is taken. -/
theorem Phase.part (hg : layout.Paged g) (hu : layout.Usable g)
    (hfits : Fits layout image manifest) (hcalm : before.fault = none) {device : Device g}
    {stage : Stage} {datagram : Datagram} {datagrams : List Datagram}
    (h : Phase layout image manifest before stage device.flash (datagram :: datagrams)) :
    (Installer.respond g layout stage datagram).Ensures device (fun _ _ => True)
      (fun outcome device' => outcome.1 = .ok () ∧ device'.jumper = device.jumper
        ∧ Phase layout image manifest before outcome.2 device'.flash datagrams) := by
  cases h with
  | waiting kept announces whole chunked carry =>
    exact Phase.announced hg hu hfits hcalm kept announces whole chunked carry
  | taking changed backed staged rest chunked carry =>
    exact Phase.chunk hg hu hfits hcalm changed backed staged rest chunked carry

/-- A stray that is refused leaves the update where it is. -/
theorem Phase.stray (hg : layout.Paged g) (hu : layout.Usable g)
    (hfits : Fits layout image manifest) (hcalm : before.fault = none) {device : Device g}
    {stage : Stage} {datagram : Datagram} {datagrams : List Datagram}
    (h : Phase layout image manifest before stage device.flash datagrams) :
    (Installer.respond g layout stage datagram).Ensures device (fun _ _ => True)
      (fun outcome device' => ∀ fault, outcome.1 = .error fault → Installer.IsRefusal fault →
        Phase layout image manifest before outcome.2 device'.flash datagrams) := by
  refine (Installer.respond_unmoved hg hu (h.backed hfits) (h.calm hcalm).1).imp
    (fun _ _ h => h) ?_
  intro outcome device' hunmoved fault heq hrefusal
  obtain ⟨hstage, hkept⟩ := hunmoved fault heq hrefusal
  rw [hstage]
  exact h.kept hkept

/-- Once all parts have been taken, the update is finished. -/
theorem Phase.finished_of_nil {stage : Stage} (hdescribes : manifest.Describes image)
    (h : Phase layout image manifest before stage flash []) :
    stage = .installed manifest ∧ Finished layout image manifest before flash := by
  cases h with
  | @taking _ written index chunks _ changed backed staged rest chunked carry =>
    cases chunks with
    | nil =>
      have hlength := congrArg List.length rest
      rw [List.flatten_nil, List.length_drop, ← hdescribes.1] at hlength
      exact absurd backed.2.1 (Nat.not_lt.2 (Nat.le_of_sub_eq_zero hlength.symm))
    | cons chunk chunks => exact carry.elim
  | finished finished => exact ⟨rfl, finished⟩

/-! ## Any traffic -/

theorem handleAll_cons (item : Traffic) (traffic : List Traffic) (stage : Stage)
    (device : Device g) :
    (Installer.handleAll g (item :: traffic) (.ready layout stage)).run device
      = (let outcome := (Installer.respond g layout stage item.datagram).run device
        let rest := (Installer.handleAll g traffic (.ready layout outcome.1.2)).run outcome.2
        (((item, outcome.1.1) :: rest.1.1, rest.1.2), rest.2)) := by
  rw [Installer.handleAll, Procedure.run_bind, Installer.process_ready, Procedure.run_bind,
    Procedure.run_bind]
  rfl

/-- Every datagram gets an answer. -/
theorem handleAll_items (traffic : List Traffic) (installer : Installer) (device : Device g) :
    ((Installer.handleAll g traffic installer).run device).1.1.map Prod.fst = traffic := by
  induction traffic generalizing installer device with
  | nil => rfl
  | cons item traffic ih =>
    rw [Installer.handleAll, Procedure.run_bind, Procedure.run_bind]
    exact congrArg (item :: ·) (ih _ _)

/-- If every stray is refused, every part that comes is taken. -/
theorem Phase.handleAll (hg : layout.Paged g) (hu : layout.Usable g)
    (hfits : Fits layout image manifest) (hcalm : before.fault = none) (traffic : List Traffic)
    {device : Device g} {stage : Stage}
    (h : Phase layout image manifest before stage device.flash (Traffic.parts traffic))
    (hrefused : ∀ answer ∈ ((Installer.handleAll g traffic (.ready layout stage)).run device).1.1,
      answer.1.Refused answer.2) :
    (∀ answer ∈ ((Installer.handleAll g traffic (.ready layout stage)).run device).1.1,
        ∀ datagram, answer.1 = .part datagram → answer.2 = .ok ())
      ∧ ∃ stage', ((Installer.handleAll g traffic (.ready layout stage)).run device).1.2
          = .ready layout stage'
        ∧ Phase layout image manifest before stage'
          ((Installer.handleAll g traffic (.ready layout stage)).run device).2.flash [] := by
  induction traffic generalizing device stage with
  | nil => exact ⟨nofun, stage, rfl, h⟩
  | cons item traffic ih =>
    rw [handleAll_cons] at hrefused ⊢
    have hhead := hrefused _ List.mem_cons_self
    have htail := fun answer hmem => hrefused answer (List.mem_cons_of_mem _ hmem)
    cases item with
    | part datagram =>
      obtain ⟨hok, -, hphase⟩ := (Phase.part hg hu hfits hcalm h).2
      obtain ⟨hall, hend⟩ := ih hphase htail
      refine ⟨?_, hend⟩
      intro answer hmem datagram' heq
      rcases List.mem_cons.1 hmem with rfl | hmem
      · exact hok
      · exact hall answer hmem datagram' heq
    | stray datagram =>
      -- A stray is promised to be refused, and a refusal leaves the update where it was.
      obtain ⟨fault, heq, hrefusal⟩ := hhead
      have hphase := (Phase.stray hg hu hfits hcalm h).2 fault heq hrefusal
      obtain ⟨hall, hend⟩ := ih hphase htail
      refine ⟨?_, hend⟩
      intro answer hmem datagram' heq
      rcases List.mem_cons.1 hmem with rfl | hmem
      · cases heq
      · exact hall answer hmem datagram' heq

end Update

namespace Installer

variable {g : Geometry} {layout : Layout}

/-- A complete update installs exactly the image, whatever flash held before, however the image is
cut into chunks, and whatever is refused in between: every part of the update is taken, the
image's pages in the active region hold the image and erased bytes behind it, its manifest is the
record of the installed image, and what lies outside the image's pages and the record page is as
it was. -/
theorem complete_update_installs (hg : g.Regular) (hu : layout.Usable g) {image : Bytes}
    {manifest : Manifest} {chunks : List Bytes} {announcement : Datagram}
    {datagrams : List Datagram} {traffic : List Traffic} {device : Device g}
    (hpos : 0 < image.length) (hregion : image.length ≤ layout.regionSize)
    (hdescribes : manifest.Describes image) (hwhole : chunks.flatten = image)
    (hchunked : g.Chunked chunks) (hparts : Traffic.parts traffic = announcement :: datagrams)
    (hannounces : announcement.Announces manifest) (hcarry : Datagram.Carry 0 chunks datagrams)
    (hglitch : device.flash.glitch = none) (hfault : device.flash.fault = none)
    (hrefused : ∀ answer ∈ ((handleAll g traffic (.ready layout .idle)).run device).1.1,
      answer.1.Refused answer.2) :
    let outcome := (handleAll g traffic (.ready layout .idle)).run device
    (outcome.1.1.map Prod.fst = traffic
        ∧ ∀ answer ∈ outcome.1.1, ∀ datagram, answer.1 = .part datagram → answer.2 = .ok ())
      ∧ outcome.1.2 = .ready layout (.installed manifest)
      ∧ outcome.1.2.progress = (image.length, image.length)
      ∧ outcome.2.flash.slice layout.active (Pages.span g image.length)
        = image ++ List.replicate (Pages.span g image.length - image.length) Flash.erasedByte
      ∧ (outcome.1.2.installedImage.run.run outcome.2).1
        = .ok (layout.record?.map fun _ => manifest)
      ∧ ∀ place, (∀ extent ∈ layout.updateExtents g image.length, extent.Excludes place) →
        outcome.2.flash.memory[place]? = device.flash.memory[place]? := by
  intro outcome
  have hfits : Update.Fits layout image manifest :=
    ⟨hdescribes, by rw [hdescribes.1]; exact hpos, by rw [hdescribes.1]; exact hregion⟩
  have hstart : Update.Phase layout image manifest device.flash .idle device.flash
      (Traffic.parts traffic) := by
    rw [hparts]
    exact .waiting (Flash.Kept.refl hglitch) hannounces hwhole hchunked hcarry
  obtain ⟨hall, stage, hready, hphase⟩ :=
    hstart.handleAll (hg.paged layout) hu hfits hfault traffic hrefused
  obtain ⟨hglitch', hfault'⟩ := hphase.calm hfault
  -- No part is left over, so the update is finished.
  obtain ⟨rfl, hfinished⟩ := hphase.finished_of_nil hdescribes
  refine ⟨⟨Update.handleAll_items _ _ _, hall⟩, hready, ?_, hfinished.slice_eq, ?_,
    hfinished.changed.byte_eq⟩
  · rw [hready, progress, hdescribes.1]
  · rw [hready, ← hfinished.installed.1]
    exact (installedImage_reads (.installed manifest) (hg.paged layout) hu hglitch').run_eq hfault'

/-- An update of the board to an image of three bytes in two chunks, with a datagram in front that
no node takes. -/
def boardUpdate : List Traffic :=
  [.stray (.pack .error 7 none []),
    .part ((Board.describe [0x01, 0x02, 0x03]).toDatagram 0 none),
    .part (.pack .firmwareChunk 0 none [0x01, 0x02]),
    .part (.pack .firmwareChunk 1 none [0x03])]

theorem complete_update_installs_board :
    let outcome := (handleAll Board.geometry boardUpdate (.ready Board.layout .idle)).run
      ({} : Device Board.geometry)
    outcome.1.2 = .ready Board.layout (.installed (Board.describe [0x01, 0x02, 0x03]))
      ∧ outcome.2.flash.slice Board.activeOffset (Pages.span Board.geometry 3)
        = [0x01, 0x02, 0x03]
          ++ List.replicate (Pages.span Board.geometry 3 - 3) Flash.erasedByte := by
  have hannounces : ((Board.describe [0x01, 0x02, 0x03]).toDatagram 0 none).Announces
      (Board.describe [0x01, 0x02, 0x03]) := by
    refine ⟨rfl, ?_⟩
    rw [Manifest.toDatagram, Datagram.data_pack _ _ _ (by rw [Manifest.length_encode]; decide)]
    have hdecode := Manifest.decode_encode (Board.describe [0x01, 0x02, 0x03]) []
    rwa [List.append_nil] at hdecode
  have hcarry : Datagram.Carry 0 [[0x01, 0x02], [0x03]]
      [.pack .firmwareChunk 0 none [0x01, 0x02], .pack .firmwareChunk 1 none [0x03]] :=
    ⟨⟨rfl, rfl, Datagram.data_pack _ _ _ (by decide)⟩,
      ⟨rfl, rfl, Datagram.data_pack _ _ _ (by decide)⟩, trivial⟩
  have hrefused : ∀ answer ∈ ((handleAll Board.geometry boardUpdate
      (.ready Board.layout .idle)).run ({} : Device Board.geometry)).1.1,
      answer.1.Refused answer.2 := by
    intro answer hmem
    rw [boardUpdate, Update.handleAll_cons] at hmem
    rcases List.mem_cons.1 hmem with rfl | hmem
    · exact ⟨_, rfl, .inl rfl⟩
    · have hitem := List.mem_map_of_mem (f := Prod.fst) hmem
      rw [Update.handleAll_items] at hitem
      obtain ⟨item, result⟩ := answer
      rcases item with datagram | datagram
      · trivial
      · simp at hitem
  have hpos : 0 < List.length (α := UInt8) [0x01, 0x02, 0x03] := by decide
  have hwhole : List.flatten (α := UInt8) [[0x01, 0x02], [0x03]] = [0x01, 0x02, 0x03] := rfl
  have hglitch : ({} : Device Board.geometry).flash.glitch = none := rfl
  have h := complete_update_installs Board.geometry_regular Board.layout_usable hpos (by decide)
    ⟨rfl, rfl⟩ hwhole ⟨by decide, by decide⟩ rfl hannounces hcarry hglitch rfl hrefused
  exact ⟨h.2.1, h.2.2.2.1⟩

end Installer

end Reflash
