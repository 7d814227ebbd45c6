/-!
# Application layer status codes

The codes that a slave reports in its status register, with their names and
descriptions.
-/

namespace Fieldbus

inductive AlStatus where
  | noError
  | unspecifiedError
  | noMemory
  | invalidRequestedStateChange
  | unknownRequestedState
  | bootstrapNotSupported
  | noValidFirmware
  | invalidMailboxConfigBoot
  | invalidMailboxConfigPreop
  | invalidSyncManagerConfig
  | noValidInputs
  | noValidOutputs
  | synchronizationError
  | syncManagerWatchdog
  | invalidSyncManagerTypes
  | invalidOutputConfig
  | invalidInputConfig
  | invalidWatchdogConfig
  | slaveNeedsColdStart
  | slaveNeedsInit
  | slaveNeedsPreop
  | slaveNeedsSafeop
  | invalidInputMapping
  | invalidOutputMapping
  | inconsistentSettings
  | freerunNotSupported
  | syncmodeNotSupported
  | freerunNeeds3bufferMode
  | backgroundWatchdog
  | noValidInputsAndOutputs
  | fatalSyncError
  | noSyncError
  | invalidInputFmmuConfig
  | invalidDcSyncConfig
  | invalidDcLatchConfig
  | pllError
  | dcSyncIoError
  | dcSyncTimeout
  | dcInvalidSyncCycleTime
  | dcSync0CycleTime
  | dcSync1CycleTime
  | mbxAoe
  | mbxEoe
  | mbxCoe
  | mbxFoe
  | mbxSoe
  | mbxVoe
  | eepromNoAccess
  | eepromError
  | slaveRestartedLocally
  | deviceIdValueUpdated
  | applicationControllerAvailable
  | unknown
  deriving DecidableEq, Repr, Inhabited

namespace AlStatus

def code : AlStatus → Nat
  | noError => 0x0000
  | unspecifiedError => 0x0001
  | noMemory => 0x0002
  | invalidRequestedStateChange => 0x0011
  | unknownRequestedState => 0x0012
  | bootstrapNotSupported => 0x0013
  | noValidFirmware => 0x0014
  | invalidMailboxConfigBoot => 0x0015
  | invalidMailboxConfigPreop => 0x0016
  | invalidSyncManagerConfig => 0x0017
  | noValidInputs => 0x0018
  | noValidOutputs => 0x0019
  | synchronizationError => 0x001a
  | syncManagerWatchdog => 0x001b
  | invalidSyncManagerTypes => 0x001c
  | invalidOutputConfig => 0x001d
  | invalidInputConfig => 0x001e
  | invalidWatchdogConfig => 0x001f
  | slaveNeedsColdStart => 0x0020
  | slaveNeedsInit => 0x0021
  | slaveNeedsPreop => 0x0022
  | slaveNeedsSafeop => 0x0023
  | invalidInputMapping => 0x0024
  | invalidOutputMapping => 0x0025
  | inconsistentSettings => 0x0026
  | freerunNotSupported => 0x0027
  | syncmodeNotSupported => 0x0028
  | freerunNeeds3bufferMode => 0x0029
  | backgroundWatchdog => 0x002a
  | noValidInputsAndOutputs => 0x002b
  | fatalSyncError => 0x002c
  | noSyncError => 0x002d
  | invalidInputFmmuConfig => 0x002e
  | invalidDcSyncConfig => 0x0030
  | invalidDcLatchConfig => 0x0031
  | pllError => 0x0032
  | dcSyncIoError => 0x0033
  | dcSyncTimeout => 0x0034
  | dcInvalidSyncCycleTime => 0x0035
  | dcSync0CycleTime => 0x0036
  | dcSync1CycleTime => 0x0037
  | mbxAoe => 0x0041
  | mbxEoe => 0x0042
  | mbxCoe => 0x0043
  | mbxFoe => 0x0044
  | mbxSoe => 0x0045
  | mbxVoe => 0x004f
  | eepromNoAccess => 0x0050
  | eepromError => 0x0051
  | slaveRestartedLocally => 0x0060
  | deviceIdValueUpdated => 0x0061
  | applicationControllerAvailable => 0x00f0
  | unknown => 0xffff

def name : AlStatus → String
  | noError => "NO_ERROR"
  | unspecifiedError => "UNSPECIFIED_ERROR"
  | noMemory => "NO_MEMORY"
  | invalidRequestedStateChange => "INVALID_REQUESTED_STATE_CHANGE"
  | unknownRequestedState => "UNKNOWN_REQUESTED_STATE"
  | bootstrapNotSupported => "BOOTSTRAP_NOT_SUPPORTED"
  | noValidFirmware => "NO_VALID_FIRMWARE"
  | invalidMailboxConfigBoot => "INVALID_MAILBOX_CONFIG_BOOT"
  | invalidMailboxConfigPreop => "INVALID_MAILBOX_CONFIG_PREOP"
  | invalidSyncManagerConfig => "INVALID_SYNC_MANAGER_CONFIG"
  | noValidInputs => "NO_VALID_INPUTS"
  | noValidOutputs => "NO_VALID_OUTPUTS"
  | synchronizationError => "SYNCHRONIZATION_ERROR"
  | syncManagerWatchdog => "SYNC_MANAGER_WATCHDOG"
  | invalidSyncManagerTypes => "INVALID_SYNC_MANAGER_TYPES"
  | invalidOutputConfig => "INVALID_OUTPUT_CONFIG"
  | invalidInputConfig => "INVALID_INPUT_CONFIG"
  | invalidWatchdogConfig => "INVALID_WATCHDOG_CONFIG"
  | slaveNeedsColdStart => "SLAVE_NEEDS_COLD_START"
  | slaveNeedsInit => "SLAVE_NEEDS_INIT"
  | slaveNeedsPreop => "SLAVE_NEEDS_PREOP"
  | slaveNeedsSafeop => "SLAVE_NEEDS_SAFEOP"
  | invalidInputMapping => "INVALID_INPUT_MAPPING"
  | invalidOutputMapping => "INVALID_OUTPUT_MAPPING"
  | inconsistentSettings => "INCONSISTENT_SETTINGS"
  | freerunNotSupported => "FREERUN_NOT_SUPPORTED"
  | syncmodeNotSupported => "SYNCMODE_NOT_SUPPORTED"
  | freerunNeeds3bufferMode => "FREERUN_NEEDS_3BUFFER_MODE"
  | backgroundWatchdog => "BACKGROUND_WATCHDOG"
  | noValidInputsAndOutputs => "NO_VALID_INPUTS_AND_OUTPUTS"
  | fatalSyncError => "FATAL_SYNC_ERROR"
  | noSyncError => "NO_SYNC_ERROR"
  | invalidInputFmmuConfig => "INVALID_INPUT_FMMU_CONFIG"
  | invalidDcSyncConfig => "INVALID_DC_SYNC_CONFIG"
  | invalidDcLatchConfig => "INVALID_DC_LATCH_CONFIG"
  | pllError => "PLL_ERROR"
  | dcSyncIoError => "DC_SYNC_IO_ERROR"
  | dcSyncTimeout => "DC_SYNC_TIMEOUT"
  | dcInvalidSyncCycleTime => "DC_INVALID_SYNC_CYCLE_TIME"
  | dcSync0CycleTime => "DC_SYNC0_CYCLE_TIME"
  | dcSync1CycleTime => "DC_SYNC1_CYCLE_TIME"
  | mbxAoe => "MBX_AOE"
  | mbxEoe => "MBX_EOE"
  | mbxCoe => "MBX_COE"
  | mbxFoe => "MBX_FOE"
  | mbxSoe => "MBX_SOE"
  | mbxVoe => "MBX_VOE"
  | eepromNoAccess => "EEPROM_NO_ACCESS"
  | eepromError => "EEPROM_ERROR"
  | slaveRestartedLocally => "SLAVE_RESTARTED_LOCALLY"
  | deviceIdValueUpdated => "DEVICE_ID_VALUE_UPDATED"
  | applicationControllerAvailable => "APPLICATION_CONTROLLER_AVAILABLE"
  | unknown => "UNKNOWN"

def text : AlStatus → String
  | noError => "No error"
  | unspecifiedError => "Unspecified error"
  | noMemory => "No memory"
  | invalidRequestedStateChange => "Invalid requested state change"
  | unknownRequestedState => "Unknown requested state"
  | bootstrapNotSupported => "Bootstrap not supported"
  | noValidFirmware => "No valid firmware"
  | invalidMailboxConfigBoot => "Invalid mailbox configuration (BOOT)"
  | invalidMailboxConfigPreop => "Invalid mailbox configuration (PREOP)"
  | invalidSyncManagerConfig => "Invalid sync manager configuration"
  | noValidInputs => "No valid inputs available"
  | noValidOutputs => "No valid outputs"
  | synchronizationError => "Synchronization error"
  | syncManagerWatchdog => "Sync manager watchdog"
  | invalidSyncManagerTypes => "Invalid sync manager types"
  | invalidOutputConfig => "Invalid output configuration"
  | invalidInputConfig => "Invalid input configuration"
  | invalidWatchdogConfig => "Invalid watchdog configuration"
  | slaveNeedsColdStart => "Slave needs cold start"
  | slaveNeedsInit => "Slave needs INIT"
  | slaveNeedsPreop => "Slave needs PREOP"
  | slaveNeedsSafeop => "Slave needs SAFEOP"
  | invalidInputMapping => "Invalid input mapping"
  | invalidOutputMapping => "Invalid output mapping"
  | inconsistentSettings => "Inconsistent settings"
  | freerunNotSupported => "FreeRun not supported"
  | syncmodeNotSupported => "SyncMode not supported"
  | freerunNeeds3bufferMode => "FreeRun needs 3-buffer mode"
  | backgroundWatchdog => "Background watchdog"
  | noValidInputsAndOutputs => "No valid inputs and outputs"
  | fatalSyncError => "Fatal sync error"
  | noSyncError => "No sync error"
  | invalidInputFmmuConfig => "Invalid input FMMU configuration"
  | invalidDcSyncConfig => "Invalid DC sync configuration"
  | invalidDcLatchConfig => "Invalid DC latch configuration"
  | pllError => "PLL error"
  | dcSyncIoError => "DC sync I/O error"
  | dcSyncTimeout => "DC sync timeout"
  | dcInvalidSyncCycleTime => "DC invalid sync cycle time"
  | dcSync0CycleTime => "DC sync0 cycle time"
  | dcSync1CycleTime => "DC sync1 cycle time"
  | mbxAoe => "MBX_AOE"
  | mbxEoe => "MBX_EOE"
  | mbxCoe => "MBX_COE"
  | mbxFoe => "MBX_FOE"
  | mbxSoe => "MBX_SOE"
  | mbxVoe => "MBX_VOE"
  | eepromNoAccess => "EEPROM no access"
  | eepromError => "EEPROM error"
  | slaveRestartedLocally => "Slave restarted locally"
  | deviceIdValueUpdated => "Device identification value updated"
  | applicationControllerAvailable => "Application controller available"
  | unknown => "Unknown"

def all : List AlStatus := [
    .noError, .unspecifiedError, .noMemory, .invalidRequestedStateChange,
    .unknownRequestedState, .bootstrapNotSupported, .noValidFirmware,
    .invalidMailboxConfigBoot, .invalidMailboxConfigPreop, .invalidSyncManagerConfig,
    .noValidInputs, .noValidOutputs, .synchronizationError, .syncManagerWatchdog,
    .invalidSyncManagerTypes, .invalidOutputConfig, .invalidInputConfig,
    .invalidWatchdogConfig, .slaveNeedsColdStart, .slaveNeedsInit, .slaveNeedsPreop,
    .slaveNeedsSafeop, .invalidInputMapping, .invalidOutputMapping, .inconsistentSettings,
    .freerunNotSupported, .syncmodeNotSupported, .freerunNeeds3bufferMode,
    .backgroundWatchdog, .noValidInputsAndOutputs, .fatalSyncError, .noSyncError,
    .invalidInputFmmuConfig, .invalidDcSyncConfig, .invalidDcLatchConfig, .pllError,
    .dcSyncIoError, .dcSyncTimeout, .dcInvalidSyncCycleTime, .dcSync0CycleTime,
    .dcSync1CycleTime, .mbxAoe, .mbxEoe, .mbxCoe, .mbxFoe, .mbxSoe, .mbxVoe,
    .eepromNoAccess, .eepromError, .slaveRestartedLocally, .deviceIdValueUpdated,
    .applicationControllerAvailable, .unknown]

/-- The status with a given code; codes that are not listed are unknown. -/
def ofCode (code : Int) : AlStatus :=
  (all.find? fun status => (status.code : Int) = code).getD .unknown

end AlStatus

end Fieldbus
