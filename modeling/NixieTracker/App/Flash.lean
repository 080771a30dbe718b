/-!
# The flash module (`app_flash.c`)

`appFlashTasks` is one call of `APP_Flash_Tasks`; the flash driver and the file system answer with
`FlashAnswers`.
-/

namespace NixieTracker

inductive AppFlashState where
  | registerMedia | mountDisk | ensureFormatted | format | idle | error
  deriving DecidableEq, Repr

structure AppFlashData where
  state : AppFlashState
  formatAttempted : Bool
  deriving DecidableEq, Repr

/-- What the driver and the file system answer during one call. -/
structure FlashAnswers where
  /-- `DRV_SST25_Status` is `SYS_STATUS_READY`. -/
  isReady : Bool
  /-- `SYS_FS_MEDIA_MANAGER_Register`, `SYS_FS_Mount` and `SYS_FS_DriveFormat` succeed. -/
  register : Bool
  mount : Bool
  driveFormat : Bool
  /-- `SYS_FS_DriveSectorGet`: the total and the free sectors, if it succeeds. -/
  driveSectorGet : Option (UInt32 × UInt32)

def appFlashInitialize : AppFlashData := ⟨.registerMedia, false⟩

def appFlashTasks (answers : FlashAnswers) (d : AppFlashData) : AppFlashData :=
  match d.state with
  | .registerMedia =>
    if !answers.isReady then d
    else if answers.register then { d with state := .mountDisk }
    else { d with state := .error }
  | .mountDisk => if !answers.mount then d else { d with state := .ensureFormatted }
  | .ensureFormatted =>
    match answers.driveSectorGet with
    | none => { d with state := .error }
    | some (totalSectors, _) =>
      if totalSectors = 0 then
        if d.formatAttempted then { d with state := .error } else { d with state := .format }
      else { d with state := .idle }
  | .format =>
    let d := { d with formatAttempted := true }
    if !answers.driveFormat then { d with state := .error }
    else { d with state := .ensureFormatted }
  | .idle => d
  | .error => d

def appFlashIsBusy (d : AppFlashData) : Bool := d.state ≠ .idle

def appFlashIsError (d : AppFlashData) : Bool := d.state = .error

end NixieTracker
