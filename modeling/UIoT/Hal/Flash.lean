import UIoT.Defs

/-!
# Downloads to flash

The download functions of the FreeRTOS and the bare-metal port, which put a
firmware image into the flash of the microcontroller by the functions of its
vendor.  These are a parameter here, with what their documentation says.
-/

namespace UIoT
namespace Flash

/-! ## The vendor's functions -/

/-- `HAL_StatusTypeDef` -/
inductive HalStatus
  | ok
  | error
  | busy
  | timeout
  deriving DecidableEq, Repr

/-- The address space, and whether the flash is locked. -/
structure Device where
  contents : Memory
  locked : Bool

/-- `HAL_FLASH_Program` for one byte, and `HAL_FLASHEx_Erase` for so many
sectors from one on. -/
structure Vendor where
  program : Device → (address : UInt32) → (data : UInt8) → HalStatus × Device
  erase : Device → (sector number : Nat) → HalStatus × Device

/-- The sectors that the addresses lie in that the ports use. -/
def sectorOf (address : Nat) : Option Nat :=
  if 0x08018000 ≤ address ∧ address < 0x08020000 then some 3
  else if 0x08100000 ≤ address ∧ address < 0x08200000 then
    some (8 + (address - 0x08100000) / 0x40000)
  else none

/-- What an erased sector holds. -/
def erased : UInt8 := 0xFF

/-- The contents with some sectors erased. -/
def erasedIn (sector number : Nat) (contents : Memory) : Memory :=
  fun address =>
    match sectorOf address with
    | some index =>
        if sector ≤ index ∧ index < sector + number then erased
        else contents address
    | none => contents address

/-- What is documented: locked flash is not programmed, and programming does not
lock it; where the answer is `HAL_OK`, an erased byte is programmed with the
others as they were, and sectors are erased. -/
structure Vendor.Documented (vendor : Vendor) : Prop where
  locked_program : ∀ device address data,
    (vendor.program device address data).2.locked = device.locked
  program_locked : ∀ device address data, device.locked = true →
    (vendor.program device address data).2 = device
  program_erased : ∀ device address data, device.locked = false →
    device.contents address.toNat = erased →
      (vendor.program device address data).1 = .ok →
        (vendor.program device address data).2 =
          { device with
            contents := device.contents.write address.toNat [data] }
  erase : ∀ device sector number, device.locked = false →
    (vendor.erase device sector number).1 = .ok →
      (vendor.erase device sector number).2 =
        { device with contents := erasedIn sector number device.contents }

/-- Every answer but `HAL_OK` told as an error. -/
def HalStatus.strict : HalStatus → HalStatus
  | .ok => .ok
  | _ => .error

/-- The same functions where the flash that is in use and the flash that does
not answer in time have failed as well. -/
def Vendor.strict (vendor : Vendor) : Vendor where
  program device address data :=
    ((vendor.program device address data).1.strict,
      (vendor.program device address data).2)
  erase device sector number :=
    ((vendor.erase device sector number).1.strict,
      (vendor.erase device sector number).2)

theorem HalStatus.strict_eq_ok {status : HalStatus} :
    status.strict = .ok ↔ status = .ok := by
  cases status <;> decide

theorem Vendor.Documented.strict {vendor : Vendor}
    (documented : vendor.Documented) : vendor.strict.Documented where
  locked_program := documented.locked_program
  program_locked := documented.program_locked
  program_erased device address data unlocked empty answered :=
    documented.program_erased device address data unlocked empty
      (HalStatus.strict_eq_ok.mp answered)
  erase device sector number unlocked answered :=
    documented.erase device sector number unlocked
      (HalStatus.strict_eq_ok.mp answered)

/-- No call fails that is made on unlocked flash. -/
structure Vendor.Faultless (vendor : Vendor) : Prop where
  program : ∀ device address data, device.locked = false →
    (vendor.program device address data).1 ≠ .error
  erase : ∀ device sector number, device.locked = false →
    (vendor.erase device sector number).1 ≠ .error

/-! ## The ports -/

section Ports

variable (vendor : Vendor)

/-- `CURRENT_VERSION_START_ADDR` -/
def currentVersionStartAddr : UInt32 := 0x08018000

/-- `DOWNLOAD_FINISH_FLG_ADDR` -/
def downloadFinishFlgAddr : UInt32 := 0x08018018

/-- `DOWNLOAD_START_ADDR` -/
def downloadStartAddr : UInt32 := 0x08100000

/-- `DOWNLOAD_SUCESS` -/
def downloadSucess : UInt8 := 0

/-- `DOWNLOAD_FAILED` -/
def downloadFailed : UInt8 := 1

/-- `VERSION_BYTE_NUM` -/
def versionByteNum : Nat := 24

/-- `HAL_FLASH_Locked` -/
def halFlashLocked (device : Device) : Device := { device with locked := true }

/-- `HAL_FLASH_Unlocked` -/
def halFlashUnlocked (device : Device) : Device :=
  { device with locked := false }

/-- `HAL_FLASH_Write_Byte`, which fails with the device as it is then. -/
def halFlashWriteByte (address : UInt32) (data : UInt8) (device : Device) :
    Except Device Device :=
  match vendor.program device address data with
  | (.error, device) => .error device
  | (_, device) => .ok device

/-- `HAL_FLASH_Erase_Sector` -/
def halFlashEraseSector (sector number : Nat) (device : Device) :
    Except Device Device :=
  match vendor.erase (halFlashUnlocked device) sector number with
  | (.error, device) => .error (halFlashLocked device)
  | (_, device) => .ok (halFlashLocked device)

/-- `HAL_FLASH_Read_Byte`, whose parameter has eight bits. -/
def halFlashReadByte (device : Device) (addr : UInt8) : UInt8 :=
  device.contents addr.toNat

/-- The loops that write one byte after the other: the address behind the last
one, and the device. -/
def writeBytes : List UInt8 → UInt32 → Device →
    Except (UInt32 × Device) (UInt32 × Device)
  | [], address, device => .ok (address, device)
  | byte :: bytes, address, device =>
      match halFlashWriteByte vendor address byte device with
      | .error device => .error (address + 1, device)
      | .ok device => writeBytes bytes (address + 1) device

/-- What the first loop of `HAL_Download_Init` puts into `version_info`. -/
def versionInfo (device : Device) : List UInt8 :=
  (List.range versionByteNum).map fun i =>
    halFlashReadByte device
      (currentVersionStartAddr + UInt32.ofNat i).toUInt8

/-- The device, and the global `download_addr`. -/
structure Port where
  device : Device
  downloadAddr : UInt32

/-- `HAL_Download_Init`, which fails where it returns a null pointer. -/
def halDownloadInit (device : Device) : Except Device Port := do
  let info := versionInfo device
  let device ← halFlashEraseSector vendor 3 1 device
  let (_, device) ←
    (writeBytes vendor info currentVersionStartAddr
      (halFlashUnlocked device)).mapError Prod.snd
  let device ←
    halFlashWriteByte vendor downloadFinishFlgAddr downloadFailed device
  let device ← halFlashEraseSector vendor 8 4 device
  return ⟨halFlashLocked device, downloadStartAddr⟩

/-- The rounds of a loop that counts a `uint32_t` down in an `int`. -/
def rounds (length : Nat) : Nat :=
  if length % 2 ^ 32 < 2 ^ 31 then length % 2 ^ 32 else 0

/-- `HAL_Download_Write` -/
def halDownloadWrite (port : Port) (bufferRead : List UInt8) :
    Except Port Port :=
  match writeBytes vendor (bufferRead.take (rounds bufferRead.length))
      port.downloadAddr (halFlashUnlocked port.device) with
  | .error (downloadAddr, device) => .error ⟨device, downloadAddr⟩
  | .ok (downloadAddr, device) => .ok ⟨halFlashLocked device, downloadAddr⟩

/-- `HAL_Download_End`, up to the reset of the system. -/
def halDownloadEnd (device : Device) : Device :=
  match halFlashWriteByte vendor downloadFinishFlgAddr downloadSucess
      device with
  | .error device => device
  | .ok device => device

/-- What a download makes of the device if none of its steps fails. -/
def download (device : Device) (chunks : List (List UInt8)) : Option Device :=
  match halDownloadInit vendor device with
  | .error _ => none
  | .ok port =>
      match chunks.foldlM (halDownloadWrite vendor) port with
      | .error _ => none
      | .ok port => some (halDownloadEnd vendor port.device)

end Ports

/-! ## Writing -/

theorem except_bind_ok {ε α β : Type} {x : Except ε α} {f : α → Except ε β}
    {result : β} (returns : x >>= f = .ok result) :
    ∃ value, x = .ok value ∧ f value = .ok result := by
  cases x with
  | error failed => cases returns
  | ok value => exact ⟨value, rfl, returns⟩

theorem except_mapError_ok {ε ε' α : Type} {x : Except ε α} {f : ε → ε'}
    {result : α} (returns : x.mapError f = .ok result) : x = .ok result := by
  cases x with
  | error failed => cases returns
  | ok value => exact congrArg Except.ok (Except.ok.inj returns)

theorem write_cons (contents : Memory) (address : Nat) (byte : UInt8)
    (bytes : List UInt8) :
    Memory.write (contents.write address [byte]) (address + 1) bytes =
      contents.write address (byte :: bytes) := by
  funext other
  unfold Memory.write
  rcases Nat.lt_trichotomy other address with below | rfl | above
  · rw [if_neg (by omega), if_neg (by omega), if_neg (by omega)]
  · rw [if_neg (by omega), if_pos (Nat.le_refl _), if_pos (Nat.le_refl _),
      Nat.sub_self]
    rfl
  · have later : other - address = other - (address + 1) + 1 := by omega
    rw [if_pos (by omega), if_pos (by omega), if_pos (by omega), later]
    rfl

theorem write_append (contents : Memory) (address : Nat)
    (first second : List UInt8) :
    Memory.write (contents.write address first) (address + first.length)
        second =
      contents.write address (first ++ second) := by
  induction first generalizing contents address with
  | nil => rw [Memory.write_nil]; rfl
  | cons byte first inductionHypothesis =>
      have behind : address + (byte :: first).length =
          address + 1 + first.length := by
        rw [List.length_cons]
        omega
      rw [List.cons_append, ← write_cons _ _ byte first,
        ← write_cons _ _ byte (first ++ second), behind, inductionHypothesis]

theorem write_outside (contents : Memory) {address other : Nat}
    {bytes : List UInt8}
    (outside : other < address ∨ address + bytes.length ≤ other) :
    contents.write address bytes other = contents other := by
  unfold Memory.write
  split
  · rw [List.getElem?_eq_none (by omega)]
    rfl
  · rfl

/-! ## Calls that are answered by `HAL_OK` -/

section Strict

variable {vendor : Vendor}

theorem halFlashWriteByte_strict {address : UInt32} {data : UInt8}
    {device after : Device}
    (written : halFlashWriteByte vendor.strict address data device =
      .ok after) :
    vendor.program device address data = (.ok, after) := by
  unfold halFlashWriteByte Vendor.strict at written
  dsimp only at written
  generalize vendor.program device address data = result at written
  obtain ⟨status, programmed⟩ := result
  cases status with
  | ok =>
      cases written
      rfl
  | error => cases written
  | busy => cases written
  | timeout => cases written

theorem halFlashEraseSector_strict {sector number : Nat}
    {device after : Device}
    (emptied : halFlashEraseSector vendor.strict sector number device =
      .ok after) :
    ∃ done, vendor.erase (halFlashUnlocked device) sector number =
        (.ok, done) ∧
      after = halFlashLocked done := by
  unfold halFlashEraseSector Vendor.strict at emptied
  dsimp only at emptied
  generalize vendor.erase (halFlashUnlocked device) sector number = result
    at emptied
  obtain ⟨status, done⟩ := result
  cases status with
  | ok =>
      cases emptied
      exact ⟨done, rfl, rfl⟩
  | error => cases emptied
  | busy => cases emptied
  | timeout => cases emptied

/-! The calls then do what they do of the vendor's own functions. -/

theorem halFlashWriteByte_of_strict {address : UInt32} {data : UInt8}
    {device after : Device}
    (written : halFlashWriteByte vendor.strict address data device =
      .ok after) :
    halFlashWriteByte vendor address data device = .ok after := by
  unfold halFlashWriteByte
  rw [halFlashWriteByte_strict written]

theorem halFlashEraseSector_of_strict {sector number : Nat}
    {device after : Device}
    (emptied : halFlashEraseSector vendor.strict sector number device =
      .ok after) :
    halFlashEraseSector vendor sector number device = .ok after := by
  obtain ⟨done, answered, rfl⟩ := halFlashEraseSector_strict emptied
  unfold halFlashEraseSector
  rw [answered]

theorem writeBytes_of_strict {bytes : List UInt8} {address : UInt32}
    {device : Device} {stored : UInt32 × Device}
    (written : writeBytes vendor.strict bytes address device = .ok stored) :
    writeBytes vendor bytes address device = .ok stored := by
  induction bytes generalizing address device with
  | nil => exact written
  | cons byte bytes inductionHypothesis =>
      unfold writeBytes at written ⊢
      cases first : halFlashWriteByte vendor.strict address byte device with
      | error failed =>
          rw [first] at written
          cases written
      | ok middle =>
          rw [first] at written
          rw [halFlashWriteByte_of_strict first]
          exact inductionHypothesis written

theorem halDownloadInit_of_strict {device : Device} {port : Port}
    (returns : halDownloadInit vendor.strict device = .ok port) :
    halDownloadInit vendor device = .ok port := by
  obtain ⟨emptied, sector, returns⟩ := except_bind_ok returns
  obtain ⟨stored, loop, returns⟩ := except_bind_ok returns
  obtain ⟨marked, mark, returns⟩ := except_bind_ok returns
  obtain ⟨ready, sectors, returns⟩ := except_bind_ok returns
  have loop := writeBytes_of_strict (except_mapError_ok loop)
  unfold halDownloadInit
  rw [halFlashEraseSector_of_strict sector]
  simp only [loop, halFlashWriteByte_of_strict mark,
    halFlashEraseSector_of_strict sectors, Except.mapError, bind, Except.bind]
  exact returns

theorem halDownloadWrite_of_strict {port after : Port} {bytes : List UInt8}
    (returns : halDownloadWrite vendor.strict port bytes = .ok after) :
    halDownloadWrite vendor port bytes = .ok after := by
  unfold halDownloadWrite at returns ⊢
  cases written : writeBytes vendor.strict
      (bytes.take (rounds bytes.length)) port.downloadAddr
      (halFlashUnlocked port.device) with
  | error failed =>
      rw [written] at returns
      cases returns
  | ok stored =>
      rw [written] at returns
      rw [writeBytes_of_strict written]
      exact returns

theorem halDownloadWrites_of_strict {chunks : List (List UInt8)}
    {port after : Port}
    (returns : chunks.foldlM (halDownloadWrite vendor.strict) port =
      .ok after) :
    chunks.foldlM (halDownloadWrite vendor) port = .ok after := by
  induction chunks generalizing port with
  | nil => exact returns
  | cons bytes chunks inductionHypothesis =>
      rw [List.foldlM_cons] at returns ⊢
      obtain ⟨middle, first, rest⟩ := except_bind_ok returns
      rw [halDownloadWrite_of_strict first]
      exact inductionHypothesis rest

end Strict

section Download

variable {vendor : Vendor} (documented : vendor.Documented)
include documented

/-- A byte of an erased place is programmed. -/
theorem halFlashWriteByte_spec {address : UInt32} {data : UInt8}
    {device after : Device}
    (unlocked : device.locked = false)
    (empty : device.contents address.toNat = erased)
    (written : halFlashWriteByte vendor.strict address data device =
      .ok after) :
    after = { device with
      contents := device.contents.write address.toNat [data] } := by
  have answered := halFlashWriteByte_strict written
  have programmed := documented.program_erased device address data unlocked
    empty (congrArg Prod.fst answered)
  rwa [answered] at programmed

/-- Bytes are put one behind the other into an erased place. -/
theorem writeBytes_spec {bytes : List UInt8} {address address' : UInt32}
    {device after : Device}
    (room : address.toNat + bytes.length < 2 ^ 32)
    (unlocked : device.locked = false)
    (empty : ∀ index < bytes.length,
      device.contents (address.toNat + index) = erased)
    (written : writeBytes vendor.strict bytes address device =
      .ok (address', after)) :
    address'.toNat = address.toNat + bytes.length ∧
      after = { device with
        contents := device.contents.write address.toNat bytes } := by
  induction bytes generalizing address device with
  | nil =>
      cases written
      exact ⟨rfl, by rw [Memory.write_nil]⟩
  | cons byte bytes inductionHypothesis =>
      rw [List.length_cons] at room empty
      have next : (address + 1).toNat = address.toNat + 1 := by
        rw [UInt32.toNat_add]
        exact Nat.mod_eq_of_lt (by change _ + 1 < _; omega)
      unfold writeBytes at written
      cases first : halFlashWriteByte vendor.strict address byte device with
      | error failed =>
          rw [first] at written
          cases written
      | ok middle =>
          rw [first] at written
          have stored := halFlashWriteByte_spec documented unlocked
            (empty 0 (Nat.succ_pos _)) first
          subst stored
          have behind : ∀ index < bytes.length,
              device.contents.write address.toNat [byte]
                ((address + 1).toNat + index) = erased := by
            intro index inside
            rw [next, write_outside _ (.inr (by
              rw [List.length_singleton]; omega))]
            have later := empty (index + 1) (Nat.succ_lt_succ inside)
            rwa [show address.toNat + 1 + index =
              address.toNat + (index + 1) by omega]
          obtain ⟨reached, rest⟩ := @inductionHypothesis (address + 1)
            { device with
              contents := device.contents.write address.toNat [byte] }
            (next ▸ by omega) unlocked behind written
          rw [List.length_cons, reached, next, rest, next]
          exact ⟨by omega, by rw [write_cons]⟩

/-- Erasing leaves the flash locked. -/
theorem halFlashEraseSector_spec {sector number : Nat} {device after : Device}
    (emptied : halFlashEraseSector vendor.strict sector number device =
      .ok after) :
    after = ⟨erasedIn sector number device.contents, true⟩ := by
  obtain ⟨done, answered, rfl⟩ := halFlashEraseSector_strict emptied
  have whole := documented.erase (halFlashUnlocked device) sector number rfl
    (congrArg Prod.fst answered)
  rw [answered] at whole
  rw [show done = _ from whole]
  rfl

/-! ## Before and during a download -/

omit documented in
/-- The addresses that are read have lost all but their last eight bits. -/
theorem versionInfo_eq (device : Device) :
    versionInfo device = device.contents.slice 0 versionByteNum := by
  refine List.map_congr_left fun i mem => ?_
  have small : i < 24 := List.mem_range.mp mem
  have low : ∀ i < 24,
      (currentVersionStartAddr + UInt32.ofNat i).toUInt8.toNat = 0 + i := by
    decide
  exact congrArg device.contents (low i small)

omit documented in
theorem erasedIn_of_within {sector number address index : Nat}
    {contents : Memory} (located : sectorOf address = some index)
    (within : sector ≤ index ∧ index < sector + number) :
    erasedIn sector number contents address = erased := by
  rw [erasedIn, located]
  exact if_pos within

omit documented in
theorem erasedIn_of_outside {sector number address index : Nat}
    {contents : Memory} (located : sectorOf address = some index)
    (outside : ¬(sector ≤ index ∧ index < sector + number)) :
    erasedIn sector number contents address = contents address := by
  rw [erasedIn, located]
  exact if_neg outside

omit documented in
/-- The sector with the version and the mark. -/
theorem sectorOf_version {offset : Nat} (inside : offset < 0x8000) :
    sectorOf (currentVersionStartAddr.toNat + offset) = some 3 := by
  have start : currentVersionStartAddr.toNat = 0x08018000 := rfl
  rw [start, sectorOf, if_pos (by omega)]

omit documented in
/-- The sectors of the image. -/
theorem sectorOf_image {offset : Nat} (inside : offset < 0x100000) :
    sectorOf (downloadStartAddr.toNat + offset) =
      some (8 + offset / 0x40000) := by
  have start : downloadStartAddr.toNat = 0x08100000 := rfl
  rw [start, sectorOf, if_neg (by omega), if_pos (by omega),
    Nat.add_sub_cancel_left]

/-- What `HAL_Download_Init` prepares: the bytes of the version are those of the
first addresses, the download is marked as failed, and the place for the image
is erased. -/
structure Prepared (before : Memory) (port : Port) : Prop where
  locked : port.device.locked = true
  address : port.downloadAddr = downloadStartAddr
  version : port.device.contents.slice currentVersionStartAddr.toNat
    versionByteNum = before.slice 0 versionByteNum
  mark : port.device.contents downloadFinishFlgAddr.toNat = downloadFailed
  image : ∀ offset < 0x100000,
    port.device.contents (downloadStartAddr.toNat + offset) = erased

theorem halDownloadInit_prepared {device : Device} {port : Port}
    (returns : halDownloadInit vendor.strict device = .ok port) :
    Prepared device.contents port := by
  have markAt : downloadFinishFlgAddr.toNat =
      currentVersionStartAddr.toNat + versionByteNum := by decide
  have infoLength : (versionInfo device).length = versionByteNum := by
    rw [versionInfo_eq, Memory.length_slice]
  obtain ⟨emptied, sector, returns⟩ := except_bind_ok returns
  obtain ⟨⟨_, stored⟩, loop, returns⟩ := except_bind_ok returns
  obtain ⟨marked, mark, returns⟩ := except_bind_ok returns
  obtain ⟨ready, sectors, returns⟩ := except_bind_ok returns
  cases returns
  have first := halFlashEraseSector_spec documented sector
  subst first
  have empty : ∀ offset < 0x8000, erasedIn 3 1 device.contents
      (currentVersionStartAddr.toNat + offset) = erased := fun offset inside =>
    erasedIn_of_within (sectorOf_version inside) (by decide)
  have second := writeBytes_spec documented
    (by rw [infoLength]; decide) rfl
    (fun index inside => empty index (by
      rw [infoLength] at inside
      exact inside.trans (by decide)))
    (except_mapError_ok loop)
  obtain ⟨-, rfl⟩ := second
  have third := halFlashWriteByte_spec documented rfl (by
    dsimp only [halFlashUnlocked]
    rw [markAt, write_outside _ (.inr (by rw [infoLength]))]
    exact empty versionByteNum (by decide)) mark
  subst third
  have fourth := halFlashEraseSector_spec documented sectors
  subst fourth
  have keeps (contents : Memory) {offset : Nat} (inside : offset < 0x8000) :
      erasedIn 8 4 contents (currentVersionStartAddr.toNat + offset) =
        contents (currentVersionStartAddr.toNat + offset) :=
    erasedIn_of_outside (sectorOf_version inside) (by decide)
  refine ⟨rfl, rfl, ?_, ?_, ?_⟩
  · have unmarked : ∀ index < versionByteNum, ∀ contents : Memory,
        erasedIn 8 4 (contents.write downloadFinishFlgAddr.toNat
            [downloadFailed]) (currentVersionStartAddr.toNat + index) =
          contents (currentVersionStartAddr.toNat + index) := by
      intro index inside contents
      rw [keeps _ (inside.trans (by decide)), write_outside]
      exact .inl (by rw [markAt]; omega)
    have info := Memory.slice_write_same (erasedIn 3 1 device.contents)
      currentVersionStartAddr.toNat (versionInfo device)
    rw [infoLength, versionInfo_eq] at info
    rw [← info, ← versionInfo_eq]
    refine List.map_congr_left fun index mem => ?_
    exact unmarked index (List.mem_range.mp mem) _
  · dsimp only [halFlashLocked]
    rw [markAt, keeps _ (by decide)]
    unfold Memory.write
    rw [if_pos (Nat.le_refl _), Nat.sub_self]
    rfl
  · intro offset inside
    exact erasedIn_of_within (sectorOf_image inside) (by omega)

omit documented in
theorem rounds_of_small {length : Nat} (small : length < 2 ^ 31) :
    rounds length = length := by
  rw [rounds, Nat.mod_eq_of_lt (by omega), if_pos small]

/-- A device on which some bytes of the image are stored. -/
structure Stores (port : Port) (base : Memory) (image : List UInt8) :
    Prop where
  locked : port.device.locked = true
  address : port.downloadAddr.toNat = downloadStartAddr.toNat + image.length
  contents : port.device.contents =
    base.write downloadStartAddr.toNat image

/-- `HAL_Download_Write` puts its bytes behind those that are stored. -/
theorem Stores.write {port after : Port} {base : Memory}
    {image bytes : List UInt8} (stores : Stores port base image)
    (empty : ∀ offset < 0x100000,
      base (downloadStartAddr.toNat + offset) = erased)
    (room : image.length + bytes.length ≤ 0x100000)
    (returns : halDownloadWrite vendor.strict port bytes = .ok after) :
    Stores after base (image ++ bytes) := by
  have whole : bytes.take (rounds bytes.length) = bytes := by
    rw [rounds_of_small (by omega)]
    exact List.take_length
  have start : downloadStartAddr.toNat = 0x08100000 := rfl
  have free : ∀ index < bytes.length,
      (halFlashUnlocked port.device).contents
        (port.downloadAddr.toNat + index) = erased := by
    intro index inside
    change port.device.contents _ = _
    rw [stores.contents, stores.address,
      write_outside _ (.inr (Nat.le_add_right ..)), Nat.add_assoc]
    exact empty _ (by omega)
  unfold halDownloadWrite at returns
  rw [whole] at returns
  cases written : writeBytes vendor.strict bytes port.downloadAddr
      (halFlashUnlocked port.device) with
  | error failed =>
      rw [written] at returns
      cases returns
  | ok stored =>
      obtain ⟨reached, device⟩ := stored
      rw [written] at returns
      cases returns
      obtain ⟨next, rfl⟩ := writeBytes_spec documented
        (by rw [stores.address, start]; omega) rfl free written
      refine ⟨rfl, ?_, ?_⟩
      · rw [next, stores.address, List.length_append, Nat.add_assoc]
      · change Memory.write port.device.contents _ _ = _
        rw [stores.contents, stores.address, write_append]

/-- All chunks together. -/
theorem Stores.writes {chunks : List (List UInt8)} {port after : Port}
    {base : Memory} {image : List UInt8} (stores : Stores port base image)
    (empty : ∀ offset < 0x100000,
      base (downloadStartAddr.toNat + offset) = erased)
    (room : image.length + chunks.flatten.length ≤ 0x100000)
    (returns : chunks.foldlM (halDownloadWrite vendor.strict) port =
      .ok after) :
    Stores after base (image ++ chunks.flatten) := by
  induction chunks generalizing port image with
  | nil =>
      cases returns
      rwa [List.flatten_nil, List.append_nil]
  | cons bytes chunks inductionHypothesis =>
      rw [List.flatten_cons, List.length_append] at room
      rw [List.foldlM_cons] at returns
      obtain ⟨middle, first, rest⟩ := except_bind_ok returns
      have stored := stores.write documented empty (by omega) first
      have later := inductionHypothesis stored
        (by rw [List.length_append]; omega) rest
      rwa [List.append_assoc] at later

end Download

/-- What a download has done.  The image is where it belongs; the version is
kept exactly if the first bytes of the address space are the same; and the mark
still says that the download failed. -/
structure Downloaded (before : Memory) (image : List UInt8) (after : Memory) :
    Prop where
  image : after.slice downloadStartAddr.toNat image.length = image
  version :
    after.slice currentVersionStartAddr.toNat versionByteNum =
        before.slice currentVersionStartAddr.toNat versionByteNum ↔
      before.slice 0 versionByteNum =
        before.slice currentVersionStartAddr.toNat versionByteNum
  mark : after downloadFinishFlgAddr.toNat = downloadFailed

section Returns

variable {vendor : Vendor} (documented : vendor.Documented)
  (faultless : vendor.Faultless)
include documented faultless

theorem halFlashWriteByte_returns (address : UInt32) (data : UInt8)
    {device : Device} (unlocked : device.locked = false) :
    ∃ after, halFlashWriteByte vendor address data device = .ok after ∧
      after.locked = false := by
  have answer := faultless.program device address data unlocked
  have lock := documented.locked_program device address data
  unfold halFlashWriteByte
  generalize vendor.program device address data = result at answer lock ⊢
  obtain ⟨status, after⟩ := result
  cases status with
  | error => exact absurd rfl answer
  | _ => exact ⟨after, rfl, lock.trans unlocked⟩

theorem writeBytes_returns (bytes : List UInt8) (address : UInt32)
    {device : Device} (unlocked : device.locked = false) :
    ∃ reached after, writeBytes vendor bytes address device =
      .ok (reached, after) ∧ after.locked = false := by
  induction bytes generalizing address device with
  | nil => exact ⟨address, device, rfl, unlocked⟩
  | cons byte bytes inductionHypothesis =>
      obtain ⟨middle, written, still⟩ :=
        halFlashWriteByte_returns documented faultless address byte unlocked
      unfold writeBytes
      rw [written]
      exact inductionHypothesis (address + 1) still

omit documented in
theorem halFlashEraseSector_returns (sector number : Nat) (device : Device) :
    ∃ after, halFlashEraseSector vendor sector number device = .ok after := by
  have answer := faultless.erase (halFlashUnlocked device) sector number rfl
  unfold halFlashEraseSector
  generalize vendor.erase (halFlashUnlocked device) sector number = result
    at answer ⊢
  obtain ⟨status, after⟩ := result
  cases status with
  | error => exact absurd rfl answer
  | _ => exact ⟨_, rfl⟩

theorem download_returns (device : Device) (chunks : List (List UInt8)) :
    (download vendor device chunks).isSome := by
  have inits : ∃ port, halDownloadInit vendor device = .ok port := by
    obtain ⟨emptied, sector⟩ :=
      halFlashEraseSector_returns faultless 3 1 device
    have writable : (halFlashUnlocked emptied).locked = false := rfl
    obtain ⟨reached, stored, loop, unlocked⟩ :=
      writeBytes_returns documented faultless (versionInfo device)
        currentVersionStartAddr writable
    obtain ⟨marked, mark, -⟩ := halFlashWriteByte_returns documented faultless
      downloadFinishFlgAddr downloadFailed unlocked
    obtain ⟨ready, sectors⟩ :=
      halFlashEraseSector_returns faultless 8 4 marked
    refine ⟨⟨halFlashLocked ready, downloadStartAddr⟩, ?_⟩
    unfold halDownloadInit
    rw [sector]
    simp only [loop, mark, sectors, Except.mapError, bind, Except.bind, pure,
      Except.pure]
  have writes (port : Port) : ∃ after,
      chunks.foldlM (halDownloadWrite vendor) port =
        (.ok after : Except Port Port) := by
    induction chunks generalizing port with
    | nil => exact ⟨port, rfl⟩
    | cons bytes chunks inductionHypothesis =>
        have writable : (halFlashUnlocked port.device).locked = false := rfl
        obtain ⟨reached, stored, loop, -⟩ :=
          writeBytes_returns documented faultless
            (bytes.take (rounds bytes.length)) port.downloadAddr writable
        have first : halDownloadWrite vendor port bytes =
            .ok ⟨halFlashLocked stored, reached⟩ := by
          unfold halDownloadWrite
          rw [loop]
        rw [List.foldlM_cons, first]
        exact inductionHypothesis _
  obtain ⟨port, init⟩ := inits
  obtain ⟨after, stored⟩ := writes port
  unfold download
  rw [init]
  dsimp only
  rw [stored]
  rfl

end Returns

/-- At the end the flash is locked, and the mark is not programmed. -/
theorem halDownloadEnd_locked {vendor : Vendor}
    (documented : vendor.Documented) {device : Device}
    (locked : device.locked = true) :
    halDownloadEnd vendor device = device := by
  have kept := documented.program_locked device downloadFinishFlgAddr
    downloadSucess locked
  unfold halDownloadEnd halFlashWriteByte
  generalize vendor.program device downloadFinishFlgAddr downloadSucess =
    result at kept
  obtain ⟨status, after⟩ := result
  cases status <;> exact kept

/-- A download of any chunks that fit into the sectors for the image goes
through if no call fails, where flash that is in use or does not answer in time
counts as programmed.  Where every call is answered by `HAL_OK`, the image is
stored; but the version is kept only if the bytes at the first addresses are the
same, and the mark still says that the download failed, since the flash is
locked when it should change. -/
theorem download_downloaded {vendor : Vendor}
    (documented : vendor.Documented)
    (device : Device) (chunks : List (List UInt8))
    (room : chunks.flatten.length ≤ 0x100000) :
    (vendor.Faultless → (download vendor device chunks).isSome) ∧
      ∀ after, download vendor.strict device chunks = some after →
        download vendor device chunks = some after ∧
          Downloaded device.contents chunks.flatten after.contents := by
  refine ⟨fun faultless => download_returns documented faultless device chunks,
    fun after returns => ?_⟩
  unfold download at returns
  cases init : halDownloadInit vendor.strict device with
  | error failed =>
      rw [init] at returns
      cases returns
  | ok port =>
      rw [init] at returns
      cases writes : chunks.foldlM (halDownloadWrite vendor.strict) port with
      | error failed =>
          dsimp only at returns
          rw [writes] at returns
          cases returns
      | ok done =>
          dsimp only at returns
          rw [writes] at returns
          have prepared := halDownloadInit_prepared documented init
          have begun : Stores port port.device.contents [] :=
            ⟨prepared.locked, by rw [prepared.address]; rfl,
              (Memory.write_nil _ _).symm⟩
          have stores := begun.writes documented prepared.image
            (by rwa [List.length_nil, Nat.zero_add]) writes
          rw [List.nil_append] at stores
          have ended : after = done.device := by
            rw [← halDownloadEnd_locked documented.strict stores.locked]
            exact (Option.some.inj returns).symm
          have follows : download vendor device chunks = some done.device := by
            unfold download
            rw [halDownloadInit_of_strict init]
            dsimp only
            rw [halDownloadWrites_of_strict writes]
            exact congrArg some
              (halDownloadEnd_locked documented stores.locked)
          rw [ended, stores.contents]
          refine ⟨follows, Memory.slice_write_same _ _ _, ?_, ?_⟩
          · rw [Memory.slice_write_before _ _ (by decide), prepared.version]
          · rw [write_outside _ (.inl (by decide))]
            exact prepared.mark

/-- Flash in which an erased byte can be programmed once, and which never
fails. -/
def flashOnce : Vendor where
  program device address data :=
    if device.locked then (.error, device)
    else (.ok, { device with
      contents := device.contents.write address.toNat [data] })
  erase device sector number :=
    (.ok, { device with contents := erasedIn sector number device.contents })

theorem flashOnce_documented : flashOnce.Documented where
  locked_program device address data := by
    unfold flashOnce
    dsimp only
    split <;> rfl
  program_locked device address data locked :=
    congrArg Prod.snd (if_pos locked)
  program_erased device address data unlocked _ _ := by
    have allowed : ¬device.locked = true := by simp [unlocked]
    exact congrArg Prod.snd (if_neg allowed)
  erase _ _ _ _ _ := rfl

theorem flashOnce_faultless : flashOnce.strict.Faultless where
  program device address data unlocked := by
    have allowed : ¬device.locked = true := by simp [unlocked]
    unfold flashOnce Vendor.strict
    dsimp only
    rw [if_neg allowed]
    simp [HalStatus.strict]
  erase _ _ _ _ := by simp [flashOnce, Vendor.strict, HalStatus.strict]

/-- Contents whose version differs from the first bytes. -/
def versionSeven : Memory := fun address => if address < 256 then 0 else 7

/-- A version that is lost. -/
theorem download_downloaded_versionSeven :
    ∃ after, download flashOnce ⟨versionSeven, true⟩ [[1, 2], [3]] =
        some after ∧
      Downloaded versionSeven [1, 2, 3] after.contents := by
  have outcome := download_downloaded flashOnce_documented
    ⟨versionSeven, true⟩ [[1, 2], [3]] (by decide)
  obtain ⟨after, returns⟩ := Option.isSome_iff_exists.mp
    (download_returns flashOnce_documented.strict flashOnce_faultless
      ⟨versionSeven, true⟩ [[1, 2], [3]])
  exact ⟨after, outcome.2 after returns⟩

end Flash
end UIoT
