/-
  Reflash.Proofs.Install.Completion

  An update that is sent to its end, from wherever the node is with it. A node that
  waits for an update, or has the first chunks of this one, or all of it, is sent the
  announcement, every chunk and the jump request. What it has it refuses, what it
  lacks it takes, and in the end the image is in the active region.
-/
import Reflash.Proofs.Install.Update
import Reflash.Proofs.Reassembly

namespace Reflash

/-! ## Updates as they are sent -/

/-- The datagrams of an update: the announcement of an image that fits into a region, its chunks in
order, and the request to jump to it. -/
structure CompleteUpdate (g : Geometry) (layout : Layout) where
  image : Bytes
  manifest : Manifest
  chunks : List Bytes
  announcement : Datagram
  carriers : List Datagram
  request : Datagram
  fits : Update.Fits layout image manifest
  announces : announcement.Announces manifest
  flatten_eq : chunks.flatten = image
  chunked : g.Chunked chunks
  carry : Datagram.Carry 0 chunks carriers
  request_kind : request.kind = .jumpToApp
  request_decodes : ∃ jump, JumpRequest.decode request.data = .ok jump
  whole : ∀ datagram ∈ announcement :: (carriers ++ [request]), datagram.Whole

namespace Datagram

variable {index : Nat} {datagrams : List Datagram}

/-- What carries some chunks and then others is cut where they are. -/
theorem Carry.split {taken rest : List Bytes} (h : Carry index (taken ++ rest) datagrams) :
    ∃ front back, datagrams = front ++ back ∧ Carry index taken front
      ∧ Carry (index + taken.length) rest back := by
  induction taken generalizing index datagrams with
  | nil => exact ⟨[], datagrams, rfl, trivial, h⟩
  | cons chunk taken ih =>
    cases datagrams with
    | nil => exact h.elim
    | cons datagram datagrams =>
      obtain ⟨hhead, htail⟩ := h
      obtain ⟨front, back, rfl, hfront, hback⟩ := ih htail
      refine ⟨datagram :: front, back, rfl, ⟨hhead, hfront⟩, ?_⟩
      rwa [List.length_cons, Nat.add_comm taken.length, ← Nat.add_assoc]

theorem Carry.of_mem {chunks : List Bytes} (h : Carry index chunks datagrams)
    {datagram : Datagram} (hmem : datagram ∈ datagrams) :
    datagram.kind = .firmwareChunk ∧ datagram.id.toNat < index + chunks.length := by
  induction chunks generalizing index datagrams with
  | nil =>
    cases datagrams with
    | nil => cases hmem
    | cons head datagrams => exact h.elim
  | cons chunk chunks ih =>
    cases datagrams with
    | nil => exact h.elim
    | cons head datagrams =>
      obtain ⟨⟨hkind, hid, -⟩, htail⟩ := h
      rw [List.length_cons]
      rcases List.mem_cons.1 hmem with rfl | hmem
      · exact ⟨hkind, by omega⟩
      · obtain ⟨hkind', hlt⟩ := ih htail hmem
        exact ⟨hkind', by omega⟩

theorem Carry.ne_nil {chunks : List Bytes} (h : Carry index chunks datagrams)
    (hne : chunks ≠ []) : datagrams ≠ [] := by
  rintro rfl
  cases chunks with
  | nil => exact hne rfl
  | cons chunk chunks => exact h

end Datagram

theorem Update.chunked_append {g : Geometry} {taken rest : List Bytes}
    (h : g.Chunked (taken ++ rest)) : g.Chunked rest := by
  induction taken with
  | nil => exact h
  | cons chunk taken ih => exact ih (chunked_tail h)

namespace CompleteUpdate

variable {g : Geometry} {layout : Layout} {update : CompleteUpdate g layout} {stage : Stage}
  {flash : Flash g} {rest : List Datagram}

def datagrams (update : CompleteUpdate g layout) : List Datagram :=
  update.announcement :: (update.carriers ++ [update.request])

def frames (update : CompleteUpdate g layout) : List Bytes :=
  update.datagrams.flatMap Datagram.frames

theorem size_eq (update : CompleteUpdate g layout) :
    update.manifest.size.toNat = update.image.length :=
  update.fits.describes.1

/-- The update to an image that travels in one chunk. -/
def single (id : FirmwareId) (image : Bytes) (hpos : 0 < image.length)
    (hmax : image.length ≤ Datagram.maxSize) (hregion : image.length ≤ layout.regionSize) :
    CompleteUpdate g layout where
  image := image
  manifest := { size := .ofNat image.length, crc := Crc32.padded image, id }
  chunks := [image]
  announcement := Manifest.toDatagram
    { size := .ofNat image.length, crc := Crc32.padded image, id } 0xFFFF0000 none
  carriers := [.pack .firmwareChunk 0 none image]
  request := JumpRequest.toDatagram {} 0xFFFF0001 none
  fits := by
    have hmaxSize : Datagram.maxSize = 2048 := rfl
    have hsize : (UInt32.ofNat image.length).toNat = image.length := by
      rw [UInt32.toNat_ofNat']
      omega
    refine ⟨⟨hsize, rfl⟩, ?_⟩
    simp only [Layout.Admits, hsize]
    exact ⟨hpos, hregion⟩
  announces := by
    have hdecode := Manifest.decode_encode
      { size := .ofNat image.length, crc := Crc32.padded image, id } []
    rw [List.append_nil] at hdecode
    refine ⟨rfl, ?_⟩
    rw [Manifest.toDatagram,
      Datagram.data_pack _ _ _ (by rw [Manifest.length_encode]; decide), hdecode]
  flatten_eq := List.flatten_singleton
  chunked := by
    refine ⟨?_, nofun⟩
    intro chunk hmem
    rw [List.mem_singleton.1 hmem]
    exact hpos
  carry := ⟨⟨rfl, rfl, Datagram.data_pack _ _ _ hmax⟩, trivial⟩
  request_kind := rfl
  request_decodes := by
    have hdecode := JumpRequest.decode_encode []
    rw [List.append_nil] at hdecode
    refine ⟨{}, ?_⟩
    rw [JumpRequest.toDatagram, Datagram.data_pack _ _ _ (by decide), hdecode]
  whole := by
    refine List.forall_mem_cons.2 ⟨?_, List.forall_mem_cons.2 ⟨?_, List.forall_mem_singleton.2 ?_⟩⟩
    · exact Datagram.pack_whole _ _ _ (by rw [Manifest.length_encode]; decide)
        (by rw [Manifest.length_encode]; decide)
    · exact Datagram.pack_whole _ _ _ hpos hmax
    · exact Datagram.pack_whole _ _ _ (by decide) (by decide)

/-- What a node may have of an update before it is sent: nothing and no other update either, the
first of its chunks, all of its chunks, or the image where it belongs. -/
inductive Begun (update : CompleteUpdate g layout) (flash : Flash g) : Stage → Prop
  | nothing : Begun update flash .idle
  | chunks {taken rest : List Bytes} (chunks_eq : update.chunks = taken ++ rest)
      (slice_eq : flash.slice layout.staging taken.flatten.length = taken.flatten) :
      Begun update flash (.receiving update.manifest taken.flatten.length taken.length)
  | staged (slice_eq : flash.slice layout.staging update.image.length = update.image) :
      Begun update flash (.complete update.manifest)
  | installed (slice_eq : flash.slice layout.active update.image.length = update.image) :
      Begun update flash (.installed update.manifest)

/-! ## What is still to come -/

/-- The datagram is refused, and that is all that comes of it. -/
def Ignores (g : Geometry) (layout : Layout) (stage : Stage) (datagram : Datagram) : Prop :=
  ∃ fault, Installer.respond g layout stage datagram = pure (.error fault, stage)

/-- With these datagrams a node that has come as far as `stage` finishes the update. -/
inductive Due (update : CompleteUpdate g layout) : Stage → Flash g → List Datagram → Prop
  /-- The node has no use for the first of them. -/
  | ignored {stage : Stage} {flash : Flash g} {datagram : Datagram} {rest : List Datagram}
      (ignores : Ignores g layout stage datagram) (due : Due update stage flash rest) :
      Due update stage flash (datagram :: rest)
  /-- The node lacks some parts of the update, and they come in order. -/
  | lacking {stage : Stage} {before flash : Flash g} {parts : List Datagram}
      (calm : before.fault = none)
      (phase : Update.Phase layout update.image update.manifest before stage flash parts)
      (missing : parts ≠ []) : Due update stage flash (parts ++ [update.request])
  /-- All is staged, and the jump request starts another attempt at the installation. -/
  | staged {flash : Flash g} (glitch_eq : flash.glitch = none) (fault_eq : flash.fault = none)
      (slice_eq : flash.slice layout.staging update.image.length = update.image) :
      Due update (.complete update.manifest) flash [update.request]
  | installed {flash : Flash g} (glitch_eq : flash.glitch = none)
      (slice_eq : flash.slice layout.active update.image.length = update.image) :
      Due update (.installed update.manifest) flash [update.request]
  | done {flash : Flash g} (glitch_eq : flash.glitch = none)
      (slice_eq : flash.slice layout.active update.image.length = update.image) :
      Due update (.installed update.manifest) flash []

theorem Due.append {known : List Datagram} (h : update.Due stage flash rest)
    (hknown : ∀ datagram ∈ known, Ignores g layout stage datagram) :
    update.Due stage flash (known ++ rest) := by
  induction known with
  | nil => exact h
  | cons datagram known ih =>
    exact .ignored (hknown datagram List.mem_cons_self)
      (ih fun other hmem => hknown other (List.mem_cons_of_mem _ hmem))

/-- What only reads does not get in the way of the update. -/
theorem Due.kept {after : Flash g} (h : update.Due stage flash rest)
    (hkept : Flash.Kept flash after) : update.Due stage after rest := by
  induction h with
  | ignored ignores _ ih => exact .ignored ignores (ih hkept)
  | lacking calm phase missing => exact .lacking calm (phase.kept hkept) missing
  | staged glitch_eq fault_eq slice_eq =>
    exact .staged hkept.glitch_eq (hkept.fault_eq fault_eq) ((hkept.slice_eq _ _).trans slice_eq)
  | installed glitch_eq slice_eq =>
    exact .installed hkept.glitch_eq ((hkept.slice_eq _ _).trans slice_eq)
  | done glitch_eq slice_eq =>
    exact .done hkept.glitch_eq ((hkept.slice_eq _ _).trans slice_eq)

theorem Due.glitch_eq (h : update.Due stage flash rest) : flash.glitch = none := by
  induction h with
  | ignored _ _ ih => exact ih
  | lacking calm phase missing => exact (phase.calm calm).1
  | staged glitch_eq => exact glitch_eq
  | installed glitch_eq => exact glitch_eq
  | done glitch_eq => exact glitch_eq

theorem Due.finished (h : update.Due stage flash []) :
    stage = .installed update.manifest
      ∧ flash.slice layout.active update.image.length = update.image := by
  generalize hnil : ([] : List Datagram) = datagrams at h
  cases h with
  | done glitch_eq slice_eq => exact ⟨rfl, slice_eq⟩
  | lacking => exact absurd hnil.symm (List.append_ne_nil_of_right_ne_nil _ (List.cons_ne_nil _ _))
  | ignored | staged | installed => cases hnil

/-! ## One datagram -/

/-- The jump request leaves the installed image where it is. -/
theorem respond_request_installed (hu : layout.Usable g) (update : CompleteUpdate g layout)
    {device : Device g} (hglitch : device.flash.glitch = none)
    (hslice : device.flash.slice layout.active update.image.length = update.image) :
    (Installer.respond g layout (.installed update.manifest) update.request).Ensures device
      (fun _ _ => True)
      (fun outcome device' => update.Due outcome.2 device'.flash []) := by
  obtain ⟨jump, hdecode⟩ := update.request_decodes
  simp only [Installer.respond]
  rw [update.request_kind]
  show Procedure.Ensures (Installer.acceptJump g layout _ _) _ _ _
  rw [Installer.acceptJump, hdecode]
  refine Procedure.Ensures.bind ((Installer.ensures_leave hu update.fits.admits.2 hglitch).imp
    (fun _ _ _ => trivial) fun _ _ h => h) ?_
  intro fault device' h
  exact Procedure.ensures_pure (.done h.kept.glitch_eq ((h.kept.slice_eq _ _).trans hslice))

/-- The jump request installs an image that is staged. -/
theorem respond_request_staged (hg : layout.Paged g) (hu : layout.Usable g)
    (update : CompleteUpdate g layout) {device : Device g}
    (hglitch : device.flash.glitch = none) (hfault : device.flash.fault = none)
    (hslice : device.flash.slice layout.staging update.image.length = update.image) :
    (Installer.respond g layout (.complete update.manifest) update.request).Ensures device
      (fun _ _ => True)
      (fun outcome device' => update.Due outcome.2 device'.flash []) := by
  obtain ⟨jump, hdecode⟩ := update.request_decodes
  simp only [Installer.respond]
  rw [update.request_kind]
  show Procedure.Ensures (Installer.acceptJump g layout _ _) _ _ _
  rw [Installer.acceptJump, hdecode]
  refine (Installer.ensures_finalize hg hu update.fits.admits.2 hglitch).run
    (fun _ _ _ _ => trivial) ?_ ?_
  · rintro _ after ⟨hchanged, -, hcopied, -⟩
    have hle := Pages.le_span hu.page_pos update.manifest.size.toNat
    have hactive : after.slice layout.active update.image.length = update.image := by
      rw [← update.size_eq, ← Flash.slice_take _ _ hle, hcopied, Flash.slice_take _ _ hle,
        update.size_eq]
      exact hslice
    show Procedure.Ensures (Installer.leave layout update.manifest >>= fun fault => _) _ _ _
    refine Procedure.Ensures.bind ((Installer.ensures_leave hu update.fits.admits.2
      hchanged.glitch_eq).imp (fun _ _ _ => trivial) fun _ _ h => h) ?_
    intro fault device' h
    exact Procedure.ensures_pure (.done h.kept.glitch_eq ((h.kept.slice_eq _ _).trans hactive))
  · rintro fault after ⟨-, hreason⟩
    -- Nothing is planned to fail, and what is staged is the image.
    rcases hreason with hfailing | ⟨-, hne⟩
    · exact absurd hfailing (FlashTask.not_failing hfault)
    · rw [update.size_eq, hslice] at hne
      exact absurd update.fits.describes.2.symm hne

/-- A part that the node lacks is taken, and the last of them finishes the update. -/
theorem Due.of_phase {before : Flash g} (hu : layout.Usable g) (hcalm : before.fault = none)
    {parts : List Datagram}
    (h : Update.Phase layout update.image update.manifest before stage flash parts) :
    update.Due stage flash (parts ++ [update.request]) := by
  by_cases hmissing : parts = []
  · subst hmissing
    obtain ⟨rfl, hfinished⟩ := h.finished_of_nil update.fits.describes
    refine .installed hfinished.changed.glitch_eq ?_
    rw [← Flash.slice_take _ _ (Pages.le_span hu.page_pos _), hfinished.slice_eq, List.take_left]
  · exact .lacking hcalm h hmissing

/-- Whichever datagram comes next, the update is due with those that come after it. -/
theorem Due.respond (hg : layout.Paged g) (hu : layout.Usable g) {device : Device g}
    {datagram : Datagram} (h : update.Due stage device.flash (datagram :: rest)) :
    let outcome := (Installer.respond g layout stage datagram).run device
    update.Due outcome.1.2 outcome.2.flash rest := by
  generalize hflash : device.flash = flash at h
  generalize hdatagrams : datagram :: rest = datagrams at h
  cases h with
  | ignored ignores due =>
    cases hdatagrams
    obtain ⟨fault, hrespond⟩ := ignores
    subst hflash
    rw [hrespond]
    exact due
  | @lacking _ before _ parts calm phase missing =>
    cases parts with
    | nil => exact absurd rfl missing
    | cons part parts =>
      cases hdatagrams
      subst hflash
      exact .of_phase hu calm (phase.part hg hu update.fits calm).2.2.2
  -- Only the jump request is left, and it finds the image staged or in its place.
  | staged glitch_eq fault_eq slice_eq =>
    cases hdatagrams
    subst hflash
    exact (respond_request_staged hg hu update glitch_eq fault_eq slice_eq).2
  | installed glitch_eq slice_eq =>
    cases hdatagrams
    subst hflash
    exact (respond_request_installed hu update glitch_eq slice_eq).2
  | done => cases hdatagrams

/-! ## From the announcement on -/

theorem ignores_announcement (update : CompleteUpdate g layout) (hstage : stage ≠ .idle) :
    Ignores g layout stage update.announcement := by
  refine ⟨.bootloaderInvalidState, ?_⟩
  simp only [Installer.respond]
  rw [update.announces.1]
  cases stage with
  | idle => exact absurd rfl hstage
  | receiving | complete | installed => rfl

/-- A node that does not wait for chunks has no use for any. -/
theorem ignores_carrier {datagram : Datagram} (hmem : datagram ∈ update.carriers)
    (hstage : ∀ manifest written count, stage ≠ .receiving manifest written count) :
    Ignores g layout stage datagram := by
  refine ⟨.bootloaderInvalidState, ?_⟩
  simp only [Installer.respond]
  rw [(update.carry.of_mem hmem).1]
  cases stage with
  | receiving manifest written count => exact absurd rfl (hstage _ _ _)
  | idle | complete | installed => rfl

/-- A chunk that the node has taken is out of order. -/
theorem ignores_taken {datagram : Datagram} {manifest : Manifest} {written count : Nat}
    (hkind : datagram.kind = .firmwareChunk) (hid : datagram.id.toNat < count) :
    Ignores g layout (.receiving manifest written count) datagram := by
  refine ⟨.sequenceOutOfOrder, ?_⟩
  simp only [Installer.respond]
  rw [hkind]
  show Installer.acceptChunk g layout manifest written count datagram = _
  rw [Installer.acceptChunk, Installer.refuseChunk, if_pos (Nat.ne_of_lt hid)]

/-- A node with all of the chunks ignores everything but the jump request. -/
theorem Due.behind (h : update.Due stage flash [update.request]) (hidle : stage ≠ .idle)
    (hstage : ∀ manifest written count, stage ≠ .receiving manifest written count) :
    update.Due stage flash update.datagrams :=
  .ignored (update.ignores_announcement hidle)
    (h.append fun _ hmem => ignores_carrier hmem hstage)

/-- From its announcement on an update is due at a node that may have begun with it. -/
theorem Begun.due (hbacked : stage.Backed layout flash) (hglitch : flash.glitch = none)
    (hfault : flash.fault = none) (h : update.Begun flash stage) :
    update.Due stage flash update.datagrams := by
  cases h with
  | nothing =>
    exact .lacking hfault (.waiting (Flash.Kept.refl hglitch) update.announces update.flatten_eq
      update.chunked update.carry) (List.cons_ne_nil _ _)
  | @chunks taken rest chunks_eq slice_eq =>
    have hcarry := update.carry
    have hchunked := update.chunked
    have himage := update.flatten_eq
    rw [chunks_eq] at hcarry hchunked himage
    rw [List.flatten_append] at himage
    obtain ⟨front, back, hcarriers, hfront, hback⟩ := hcarry.split
    rw [Nat.zero_add] at hback
    have hrest : rest ≠ [] := by
      rintro rfl
      have hlt := hbacked.2.1
      rw [update.size_eq, ← himage, List.flatten_nil, List.append_nil] at hlt
      exact absurd hlt (Nat.lt_irrefl _)
    -- What it has taken is ignored, and what it lacks comes right behind it.
    have hdue : update.Due _ flash (back ++ [update.request]) :=
      .lacking hfault (.taking ((Flash.Kept.refl hglitch).changed _) hbacked
        (by rw [slice_eq, ← himage, List.take_left]) (by rw [← himage, List.drop_left])
        (Update.chunked_append hchunked) hback) (hback.ne_nil hrest)
    rw [datagrams, hcarriers, List.append_assoc]
    refine .ignored (update.ignores_announcement nofun) (hdue.append fun datagram hmem => ?_)
    obtain ⟨hkind, hid⟩ := hfront.of_mem hmem
    exact ignores_taken hkind (by omega)
  | staged slice_eq => exact (Due.staged hglitch hfault slice_eq).behind nofun nofun
  | installed slice_eq => exact (Due.installed hglitch slice_eq).behind nofun nofun

end CompleteUpdate

end Reflash
