import Mathlib.Logic.Function.Basic
import Neutrix.DriverFramework.Attach
import Neutrix.Drivers.VbeVga

/-!
# Neutrix — the drivers as the manager sees them

Model of the `Driver` implementations of `src/driver_framework/drivers/`:
`ps2kbd.rs`, `ps2mouse.rs` and `vbe_vga.rs`, with the interrupt table of
`src/arch/idt.rs`. `World` holds what their callbacks act on: the fields of
all instances, the statics, the interrupt table, the leaf page mapping and
the display's mode registers. Framebuffer contents, the controller's ports
and log lines are left out.

A callback that panics does not come back: indexing the interrupt table
panics for exception vectors with an error code and for reserved ones,
`PhysAddr::new` and `VirtAddr::new` panic for addresses out of range.
`map_to` fails on a mapped page and adds the mapping otherwise, `unmap`
removes a mapping.
-/

namespace Neutrix.Drivers

-- ---------------------------------------------------------------------------
-- Instances
-- ---------------------------------------------------------------------------

inductive Kind where
  | ps2kbd
  | ps2mouse
  | vbeVga
deriving DecidableEq, Repr

/-- A boxed driver: its type and its address. -/
structure Instance where
  kind : Kind
  addr : Nat
deriving DecidableEq, Repr

-- ---------------------------------------------------------------------------
-- Interrupt table
-- ---------------------------------------------------------------------------

inductive Handler where
  | exception
  | defaultIrq
  | kbd
  | mouse
deriving DecidableEq, Repr

/-- The vectors the table can be indexed with. -/
def indexable (vector : UInt8) : Bool :=
  32 ≤ vector || vector ∈ [0, 1, 2, 3, 4, 5, 6, 7, 9, 16, 19, 20, 28]

abbrev Idt := UInt8 → Handler

/-- `ensure_idt_initialized`. -/
def initialIdt : Idt := fun vector => if 32 ≤ vector then .defaultIrq else .exception

def setHandler (idt : Idt) (vector : UInt8) (handler : Handler) : Option Idt :=
  if indexable vector then some (Function.update idt vector handler) else none

def registerIrqHandler (idt : Idt) (vector : UInt8) (handler : Handler) : Option Idt :=
  setHandler idt vector handler

def unregisterIrqHandler (idt : Idt) (vector : UInt8) : Option Idt :=
  setHandler idt vector .defaultIrq

-- ---------------------------------------------------------------------------
-- The world
-- ---------------------------------------------------------------------------

structure FbMapping where
  virtBase     : UInt64
  physMapStart : UInt64
  barPhys      : UInt64
  pages        : Nat
deriving DecidableEq, Repr

/-- The fields of a `VbeVgaDriver`. -/
structure VbeVgaDriver where
  started  : Bool
  mappings : List FbMapping
  fbInfo   : Option FramebufferInfo
deriving DecidableEq, Repr

def VbeVgaDriver.new : VbeVgaDriver := ⟨false, [], none⟩

/-- Leaf mappings of 4 KiB pages: the frame of the page that starts at an address. -/
abbrev PageMap := UInt64 → Option UInt64

structure World where
  idt               : Idt
  -- `registered_vectors` of the PS/2 drivers
  registeredVectors : Instance → List UInt8
  globalPs2Mouse    : Option Instance
  ps2MouseVector    : UInt8
  vbe               : Instance → VbeVgaDriver
  activeVbe         : Option Instance
  pages             : PageMap
  -- mapper and frame allocator pointers are set
  mapperSet         : Bool
  bootPhysOffset    : UInt64
  dispi             : UInt16 → UInt16

/-- Before any driver was started. -/
structure World.Fresh (w : World) : Prop where
  idt     : w.idt = initialIdt
  vectors : ∀ d, w.registeredVectors d = []
  mouse   : w.globalPs2Mouse = none
  vbe     : ∀ d, w.vbe d = VbeVgaDriver.new
  active  : w.activeVbe = none

/-- A fresh world with the given leaf mappings. -/
def World.boot (pages : PageMap) : World where
  idt               := initialIdt
  registeredVectors := fun _ => []
  globalPs2Mouse    := none
  ps2MouseVector    := 0
  vbe               := fun _ => VbeVgaDriver.new
  activeVbe         := none
  pages             := pages
  mapperSet         := true
  bootPhysOffset    := 0xFFFF800000000000
  dispi             := fun _ => 0xB0C5

theorem World.boot_fresh (pages : PageMap) : (World.boot pages).Fresh :=
  ⟨rfl, fun _ => rfl, rfl, fun _ => rfl, rfl⟩

-- ---------------------------------------------------------------------------
-- PS/2 drivers
-- ---------------------------------------------------------------------------

/-- The `Interrupt(v)` resources. -/
def interrupts (info : DeviceInfo) : List UInt8 :=
  info.resources.filterMap fun r =>
    match r.kind with
    | .interrupt vector => some vector
    | _ => none

def contains (text : String) (part : List Char) : Bool := part <:+: text.toList

def kbdProbe (info : DeviceInfo) : Except String Unit :=
  if info.class_ = 0x09 || contains info.description "PS/2 Keyboard".toList then .ok ()
  else .error "not a PS/2 keyboard"

def mouseProbe (info : DeviceInfo) : Except String Unit :=
  if info.class_ = 0x09 || contains info.description "PS/2 Mouse".toList ||
      contains info.description "Mouse".toList then .ok ()
  else .error "not a PS/2 mouse"

/-- One interrupt resource: the handler goes into the table and the vector into the
driver's own list. -/
def registerVector (d : Instance) (handler : Handler) (w : World) (vector : UInt8) : Option World :=
  (registerIrqHandler w.idt vector handler).map fun idt =>
    let reg := w.registeredVectors d
    { w with
      idt := idt
      registeredVectors := Function.update w.registeredVectors d
        (if vector ∈ reg then reg else reg ++ [vector]) }

/-- The keyboard port is disabled and a line is printed, which is not modelled. -/
def kbdStart (d : Instance) (info : DeviceInfo) (w : World) : Option World :=
  (interrupts info).foldlM (registerVector d .kbd) w

/-- The controller set-up that follows ignores its failures. -/
def mouseStart (d : Instance) (info : DeviceInfo) (w : World) : Option World :=
  ((interrupts info).foldlM (fun w vector =>
    (registerVector d .mouse w vector).map fun w => { w with ps2MouseVector := vector }) w).map
    fun w => { w with globalPs2Mouse := some d }

/-- `stop` of both PS/2 drivers. -/
def ps2Stop (d : Instance) (w : World) : Option World :=
  ((w.registeredVectors d).foldlM unregisterIrqHandler w.idt).map fun idt => { w with idt := idt }

/-- `release` of the keyboard driver, and of the mouse driver up to its instance
pointer. -/
def ps2Release (d : Instance) (w : World) : Option World :=
  (ps2Stop d w).map fun w =>
    { w with registeredVectors := Function.update w.registeredVectors d [] }

def mouseRelease (d : Instance) (w : World) : Option World :=
  (ps2Release d w).map fun w => { w with globalPs2Mouse := none }

-- ---------------------------------------------------------------------------
-- VBE driver
-- ---------------------------------------------------------------------------

def vbeProbe (info : DeviceInfo) : Except String Unit :=
  if info.class_ = 0x03 then .ok () else .error "not a display controller"

/-- `PhysAddr::new` takes 52-bit addresses. -/
def physOk (addr : UInt64) : Bool := addr < (1 : UInt64) <<< 52

/-- `VirtAddr::new` takes canonical addresses. -/
def canonical (addr : UInt64) : Bool :=
  addr < (1 : UInt64) <<< 47 || 0xFFFF800000000000 ≤ addr

def pageOf (addr : UInt64) : UInt64 := addr &&& ~~~ 0xFFF

/-- `None` is `Err`: the page is mapped already. -/
def mapTo (pages : PageMap) (page frame : UInt64) : Option PageMap :=
  match pages page with
  | some _ => none
  | none => some (Function.update pages page (some frame))

def unmap (pages : PageMap) (page : UInt64) : PageMap := Function.update pages page none

/-- The page loop of `start` from page `i` on; it ends at the first page that cannot
be mapped. -/
def mapLoop (virtBase physMapStart : UInt64) : Nat → Nat → PageMap → Option PageMap
  | 0, _, pages => some pages
  | left + 1, i, pages =>
    let phys := physMapStart + i.toUInt64 * 0x1000
    let virt := virtBase + i.toUInt64 * 0x1000
    if !physOk phys || !canonical virt then none
    else
      match mapTo pages (pageOf virt) (pageOf phys) with
      | some pages => mapLoop virtBase physMapStart left (i + 1) pages
      | none => some pages

/-- The mapping recorded for a BAR. -/
def fbMapping (bootPhysOffset : UInt64) (r : Resource) : FbMapping :=
  let barLen := if r.len = 0 then 0x1000 else r.len
  let physMapStart := r.addr &&& ~~~ 0xFFF
  let physMapEnd := (r.addr + barLen + 0xFFF) &&& ~~~ 0xFFF
  { virtBase := bootPhysOffset + physMapStart
    physMapStart, barPhys := r.addr
    pages := ((physMapEnd - physMapStart) / 0x1000).toNat }

/-- The resource loop of `start`; `created` are the mappings recorded so far. -/
def mapBars (mapperSet : Bool) (bootPhysOffset : UInt64) :
    List Resource → PageMap → List FbMapping → Option (Except String (List FbMapping) × PageMap)
  | [], pages, created => some (.ok created, pages)
  | r :: rest, pages, created =>
    if r.kind ≠ .memoryMapped then mapBars mapperSet bootPhysOffset rest pages created
    else
      let m := fbMapping bootPhysOffset r
      if m.pages = 0 then mapBars mapperSet bootPhysOffset rest pages created
      else if !mapperSet then some (.error "mapper/alloc not set", pages)
      else
        match mapLoop m.virtBase m.physMapStart m.pages 0 pages with
        | none => none
        | some pages => mapBars mapperSet bootPhysOffset rest pages (created ++ [m])

/-- Writes the mode if the display answers with an id. -/
def setVbeModeDispi (dispi : UInt16 → UInt16) (xres yres bpp : UInt16) : UInt16 → UInt16 :=
  if dispi 0 = 0 ∨ dispi 0 = 0xFFFF then dispi
  else
    let dispi := Function.update dispi 4 0
    let dispi := Function.update dispi 1 xres
    let dispi := Function.update dispi 2 yres
    let dispi := Function.update dispi 3 bpp
    Function.update dispi 4 (0x01 ||| 0x40)

def vbeStart (d : Instance) (info : DeviceInfo) (w : World) :
    Option (Except String Unit × World) :=
  if (w.vbe d).started then some (.error "already started", w)
  else
    let dispi := setVbeModeDispi w.dispi 1024 768 32
    match mapBars w.mapperSet w.bootPhysOffset info.resources w.pages [] with
    | none => none
    | some (.error e, pages) => some (.error e, { w with dispi := dispi, pages := pages })
    | some (.ok created, pages) =>
      if created.isEmpty then
        some (.error "no MMIO BARs mapped", { w with dispi := dispi, pages := pages })
      else
        let fbInfo := (VbeVga.readMode (dispi 1) (dispi 2) (dispi 3)).or (w.vbe d).fbInfo
        some (.ok (), { w with
          dispi := dispi, pages := pages, activeVbe := some d
          vbe := Function.update w.vbe d ⟨true, created, fbInfo⟩ })

/-- The outcomes of `start`. -/
inductive VbeStart (d : Instance) (info : DeviceInfo) (w : World) :
    Except String Unit × World → Prop where
  | again (hStarted : (w.vbe d).started = true) : VbeStart d info w (.error "already started", w)
  | failed (msg : String) (pages : PageMap)
      (hMap : mapBars w.mapperSet w.bootPhysOffset info.resources w.pages [] =
        some (.error msg, pages)) :
      VbeStart d info w (.error msg,
        { w with dispi := setVbeModeDispi w.dispi 1024 768 32, pages := pages })
  | noBars (pages : PageMap)
      (hMap : mapBars w.mapperSet w.bootPhysOffset info.resources w.pages [] =
        some (.ok [], pages)) :
      VbeStart d info w (.error "no MMIO BARs mapped",
        { w with dispi := setVbeModeDispi w.dispi 1024 768 32, pages := pages })
  | started (created : List FbMapping) (pages : PageMap) (fbInfo : Option FramebufferInfo)
      (hNot : (w.vbe d).started = false)
      (hMap : mapBars w.mapperSet w.bootPhysOffset info.resources w.pages [] =
        some (.ok created, pages)) :
      VbeStart d info w (.ok (), { w with
        dispi := setVbeModeDispi w.dispi 1024 768 32, pages := pages, activeVbe := some d
        vbe := Function.update w.vbe d ⟨true, created, fbInfo⟩ })

theorem vbeStart_cases {d : Instance} {info : DeviceInfo} {w : World}
    {r : Except String Unit × World} (h : vbeStart d info w = some r) : VbeStart d info w r := by
  simp only [vbeStart] at h
  split_ifs at h with hStarted
  · cases h
    exact .again hStarted
  rcases hMap : mapBars w.mapperSet w.bootPhysOffset info.resources w.pages [] with
    _ | ⟨_ | created, pages⟩
  · simp only [hMap, reduceCtorEq] at h
  · simp only [hMap] at h
    cases h
    exact .failed _ pages hMap
  · simp only [hMap] at h
    split_ifs at h with hEmpty <;> cases h
    · exact .noBars pages (List.isEmpty_iff.mp hEmpty ▸ hMap)
    · exact .started created pages _ (Bool.eq_false_iff.mpr hStarted) hMap

/-- The page addresses of a recorded mapping, in order. -/
def FbMapping.addrs (m : FbMapping) : List UInt64 :=
  (List.range m.pages).map fun i => m.virtBase + i.toUInt64 * 0x1000

/-- The unmapping loop of `stop`. -/
def unmapAll (addrs : List UInt64) (pages : PageMap) : Option PageMap :=
  addrs.foldlM (fun pages virt => if canonical virt then some (unmap pages (pageOf virt)) else none)
    pages

/-- The box in the framebuffer is cleared first, which leaves the mapping alone. -/
def vbeStop (d : Instance) (w : World) : Option World :=
  if !(w.vbe d).started then some w
  else
    let pages :=
      if w.mapperSet then unmapAll ((w.vbe d).mappings.flatMap FbMapping.addrs) w.pages
      else some w.pages
    pages.map fun pages =>
      { w with
        pages := pages
        vbe := Function.update w.vbe d { w.vbe d with started := false, mappings := [] }
        activeVbe := if w.activeVbe = some d then none else w.activeVbe }

def vbeRelease (d : Instance) (w : World) : Option World := vbeStop d w

/-- The framebuffer addresses of an instance. -/
def getFramebufferAddrs (drv : VbeVgaDriver) : List UInt64 :=
  drv.mappings.map fun m => m.virtBase + (m.barPhys - m.physMapStart)

-- ---------------------------------------------------------------------------
-- The trait object
-- ---------------------------------------------------------------------------

/-- Dispatch on the instance's type. The PS/2 drivers' `start` always returns `Ok`. -/
def readOnly : ReadOnlyDriver Instance World where
  probe d dev w :=
    match d.kind with
    | .ps2kbd => some (kbdProbe dev.info, w)
    | .ps2mouse => some (mouseProbe dev.info, w)
    | .vbeVga => some (vbeProbe dev.info, w)
  start d dev w :=
    match d.kind with
    | .ps2kbd => (kbdStart d dev.info w).map fun w => (.ok (), w)
    | .ps2mouse => (mouseStart d dev.info w).map fun w => (.ok (), w)
    | .vbeVga => vbeStart d dev.info w
  stop d _ w :=
    match d.kind with
    | .ps2kbd => ps2Stop d w
    | .ps2mouse => ps2Stop d w
    | .vbeVga => vbeStop d w
  release d _ w :=
    match d.kind with
    | .ps2kbd => ps2Release d w
    | .ps2mouse => mouseRelease d w
    | .vbeVga => vbeRelease d w

/-- None of the three writes the description of its device. -/
def driver : Driver Instance World := readOnly.toDriver

/-- A `start` that returned, by the type of the instance. -/
inductive Start (d : Instance) (info : DeviceInfo) (w : World) :
    Except String Unit → World → Prop where
  | ps2kbd (w' : World) (hKind : d.kind = .ps2kbd) (hStart : kbdStart d info w = some w') :
      Start d info w (.ok ()) w'
  | ps2mouse (w' : World) (hKind : d.kind = .ps2mouse) (hStart : mouseStart d info w = some w') :
      Start d info w (.ok ()) w'
  | vbeVga (r : Except String Unit) (w' : World) (hKind : d.kind = .vbeVga)
      (hStart : vbeStart d info w = some (r, w')) : Start d info w r w'

theorem start_of_eq {d : Instance} {dev : Device} {w w' : World} {r : Except String Unit}
    (h : readOnly.start d dev w = some (r, w')) : Start d dev.info w r w' := by
  simp only [readOnly] at h
  split at h
  · next hKind =>
    obtain ⟨v, hStart, hEq⟩ := Option.map_eq_some_iff.mp h
    cases hEq
    exact .ps2kbd w' hKind hStart
  · next hKind =>
    obtain ⟨v, hStart, hEq⟩ := Option.map_eq_some_iff.mp h
    cases hEq
    exact .ps2mouse w' hKind hStart
  · next hKind => exact .vbeVga r w' hKind h

/-- A `stop` and the `release` after it, by the type of the instance. -/
inductive StopRelease (d : Instance) (w w' w'' : World) : Prop where
  | ps2kbd (hKind : d.kind = .ps2kbd) (hStop : ps2Stop d w = some w')
      (hRelease : ps2Release d w' = some w'')
  | ps2mouse (hKind : d.kind = .ps2mouse) (hStop : ps2Stop d w = some w')
      (hRelease : mouseRelease d w' = some w'')
  | vbeVga (hKind : d.kind = .vbeVga) (hStop : vbeStop d w = some w')
      (hRelease : vbeStop d w' = some w'')

theorem stopRelease_of_eq {d : Instance} {dev : Device} {w w' w'' : World}
    (hStop : readOnly.stop d dev w = some w') (hRelease : readOnly.release d dev w' = some w'') :
    StopRelease d w w' w'' := by
  simp only [readOnly] at hStop hRelease
  cases hKind : d.kind with
  | ps2kbd =>
    simp only [hKind] at hStop hRelease
    exact .ps2kbd hKind hStop hRelease
  | ps2mouse =>
    simp only [hKind] at hStop hRelease
    exact .ps2mouse hKind hStop hRelease
  | vbeVga =>
    simp only [hKind] at hStop hRelease
    exact .vbeVga hKind hStop hRelease

end Neutrix.Drivers
