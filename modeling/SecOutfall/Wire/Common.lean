import SecOutfall.Foundations.Bytes
import SecOutfall.Foundations.CLayout

/-! The wire contract of `driver/secoutfall/secoutfallCommon.h`: record types, truncation flags,
caps and the C structs of every record.

The structs are given field by field and laid out by `CLayout`, so `sizeof` is the compiler's:
`ProcessCreatedRecord` ends at 60 but its `ULONG64` header makes it 64 bytes large. The
`*_off` lemmas are the header's own `static_assert`s. -/
namespace SecOutfall.Wire
open CLayout
set_option autoImplicit false

def wireMagic : UInt16 := 0x5346
def wireVersion : UInt8 := 2

inductive RecordType where
  | processCreated | processExited | threadCreated | threadExited | imageLoaded
  | registryKeyCreated | registryKeyDeleted | registrySetValue
  | fileCreated | fileWritten | fileCleanedUp | fileDeleted | fileRenamed
  | dropCaptured | behaviorCall | protectionEvent
  deriving DecidableEq, Repr

def RecordType.code : RecordType → UInt16
  | .processCreated => 1
  | .processExited => 2
  | .threadCreated => 3
  | .threadExited => 4
  | .imageLoaded => 5
  | .registryKeyCreated => 6
  | .registryKeyDeleted => 7
  | .registrySetValue => 8
  | .fileCreated => 9
  | .fileWritten => 10
  | .fileCleanedUp => 11
  | .fileDeleted => 12
  | .fileRenamed => 13
  | .dropCaptured => 14
  | .behaviorCall => 15
  | .protectionEvent => 16

/-! ## Truncation flags and caps -/

def truncNone : UInt8 := 0x00
def truncCmdline : UInt8 := 0x01
def truncKeyPath : UInt8 := 0x02
def truncValueName : UInt8 := 0x04
def truncData : UInt8 := 0x08
def truncImageName : UInt8 := 0x10
def truncFilePath : UInt8 := 0x20
def truncOldPath : UInt8 := 0x40
def truncNewPath : UInt8 := 0x80

def maxCommandLineBytes : ℕ := 8192
def maxKeyPathBytes : ℕ := 1024
def maxValueNameBytes : ℕ := 512
def maxImageNameBytes : ℕ := 1024
def maxFilePathBytes : ℕ := 1024
def maxValueDataBytes : ℕ := 128

/-! ## Structs -/

def uchar : CField := scalar 1
def ushort : CField := scalar 2
def ulong : CField := scalar 4
def ulong64 : CField := scalar 8

namespace RecordHeader

def fields : List CField :=
  [ushort, uchar, uchar, ushort, ushort, ulong, ulong64, ulong64, ulong64, ulong]

def magic : ℕ := offsetof fields 0
def version : ℕ := offsetof fields 1
def truncFlags : ℕ := offsetof fields 2
def type : ℕ := offsetof fields 3
def headerSize : ℕ := offsetof fields 4
def processId : ℕ := offsetof fields 5
def sequence : ℕ := offsetof fields 6
def time : ℕ := offsetof fields 7
def processCreateTime : ℕ := offsetof fields 8
def size : ℕ := offsetof fields 9

@[simp] theorem magic_off : magic = 0 := rfl
@[simp] theorem version_off : version = 2 := rfl
@[simp] theorem truncFlags_off : truncFlags = 3 := rfl
@[simp] theorem type_off : type = 4 := rfl
@[simp] theorem headerSize_off : headerSize = 6 := rfl
@[simp] theorem processId_off : processId = 8 := rfl
@[simp] theorem sequence_off : sequence = 16 := rfl
@[simp] theorem time_off : time = 24 := rfl
@[simp] theorem processCreateTime_off : processCreateTime = 32 := rfl
@[simp] theorem size_off : size = 40 := rfl
@[simp] theorem sizeof_eq : sizeof fields = 48 := rfl

end RecordHeader

/-- `RecordHeader Header;`, the first field of every record. -/
def recordHeader : CField := nested RecordHeader.fields

namespace ProcessCreatedRecord

def fields : List CField := [recordHeader, ulong, ushort, ushort, ushort, ushort]

def parentProcessId : ℕ := offsetof fields 1
def commandLineOffset : ℕ := offsetof fields 2
def commandLineBytes : ℕ := offsetof fields 3
def imageNameOffset : ℕ := offsetof fields 4
def imageNameBytes : ℕ := offsetof fields 5

@[simp] theorem parentProcessId_off : parentProcessId = 48 := rfl
@[simp] theorem commandLineOffset_off : commandLineOffset = 52 := rfl
@[simp] theorem commandLineBytes_off : commandLineBytes = 54 := rfl
@[simp] theorem imageNameOffset_off : imageNameOffset = 56 := rfl
@[simp] theorem imageNameBytes_off : imageNameBytes = 58 := rfl

end ProcessCreatedRecord

namespace ThreadRecord

def fields : List CField := [recordHeader, ulong]

def threadId : ℕ := offsetof fields 1

@[simp] theorem threadId_off : threadId = 48 := rfl

end ThreadRecord

namespace ImageLoadedRecord

def fields : List CField := [recordHeader, ulong64, ulong, ushort, ushort]

def imageBase : ℕ := offsetof fields 1
def imageSize : ℕ := offsetof fields 2
def nameOffset : ℕ := offsetof fields 3
def nameBytes : ℕ := offsetof fields 4

@[simp] theorem imageBase_off : imageBase = 48 := rfl
@[simp] theorem imageSize_off : imageSize = 56 := rfl
@[simp] theorem nameOffset_off : nameOffset = 60 := rfl
@[simp] theorem nameBytes_off : nameBytes = 62 := rfl

end ImageLoadedRecord

namespace RegistryKeyRecord

def fields : List CField := [recordHeader, ushort, ushort]

def pathOffset : ℕ := offsetof fields 1
def pathBytes : ℕ := offsetof fields 2

@[simp] theorem pathOffset_off : pathOffset = 48 := rfl
@[simp] theorem pathBytes_off : pathBytes = 50 := rfl

end RegistryKeyRecord

namespace RegistrySetValueRecord

def fields : List CField := [recordHeader, ushort, ushort, ushort, ushort, ulong, ulong]

def keyPathOffset : ℕ := offsetof fields 1
def keyPathBytes : ℕ := offsetof fields 2
def valueNameOffset : ℕ := offsetof fields 3
def valueNameBytes : ℕ := offsetof fields 4
def dataType : ℕ := offsetof fields 5
def dataBytes : ℕ := offsetof fields 6

@[simp] theorem keyPathOffset_off : keyPathOffset = 48 := rfl
@[simp] theorem keyPathBytes_off : keyPathBytes = 50 := rfl
@[simp] theorem valueNameOffset_off : valueNameOffset = 52 := rfl
@[simp] theorem valueNameBytes_off : valueNameBytes = 54 := rfl
@[simp] theorem dataType_off : dataType = 56 := rfl
@[simp] theorem dataBytes_off : dataBytes = 60 := rfl

end RegistrySetValueRecord

namespace FileRecord

def fields : List CField := [recordHeader, ushort, ushort]

def pathOffset : ℕ := offsetof fields 1
def pathBytes : ℕ := offsetof fields 2

@[simp] theorem pathOffset_off : pathOffset = 48 := rfl
@[simp] theorem pathBytes_off : pathBytes = 50 := rfl

end FileRecord

namespace FileWrittenRecord

def fields : List CField := [recordHeader, ulong64, ulong, ushort, ushort]

def byteOffset : ℕ := offsetof fields 1
def bytesCount : ℕ := offsetof fields 2
def pathOffset : ℕ := offsetof fields 3
def pathBytes : ℕ := offsetof fields 4

@[simp] theorem byteOffset_off : byteOffset = 48 := rfl
@[simp] theorem bytesCount_off : bytesCount = 56 := rfl
@[simp] theorem pathOffset_off : pathOffset = 60 := rfl
@[simp] theorem pathBytes_off : pathBytes = 62 := rfl

end FileWrittenRecord

namespace FileRenamedRecord

def fields : List CField := [recordHeader, ushort, ushort, ushort, ushort]

def oldPathOffset : ℕ := offsetof fields 1
def oldPathBytes : ℕ := offsetof fields 2
def newPathOffset : ℕ := offsetof fields 3
def newPathBytes : ℕ := offsetof fields 4

@[simp] theorem oldPathOffset_off : oldPathOffset = 48 := rfl
@[simp] theorem oldPathBytes_off : oldPathBytes = 50 := rfl
@[simp] theorem newPathOffset_off : newPathOffset = 52 := rfl
@[simp] theorem newPathBytes_off : newPathBytes = 54 := rfl

end FileRenamedRecord

namespace DropCapturedRecord

def fields : List CField := [recordHeader, ushort, ushort, ushort, ushort, ulong]

def pathOffset : ℕ := offsetof fields 1
def pathBytes : ℕ := offsetof fields 2
def storedOffset : ℕ := offsetof fields 3
def storedBytes : ℕ := offsetof fields 4
def method : ℕ := offsetof fields 5

@[simp] theorem pathOffset_off : pathOffset = 48 := rfl
@[simp] theorem pathBytes_off : pathBytes = 50 := rfl
@[simp] theorem storedOffset_off : storedOffset = 52 := rfl
@[simp] theorem storedBytes_off : storedBytes = 54 := rfl
@[simp] theorem method_off : method = 56 := rfl

end DropCapturedRecord

namespace BehaviorCallRecord

def fields : List CField := [recordHeader, ulong, ulong, ulong64, ulong64, ulong64, ulong64]

def threadId : ℕ := offsetof fields 1
def api : ℕ := offsetof fields 2
def arg0 : ℕ := offsetof fields 3
def arg1 : ℕ := offsetof fields 4
def arg2 : ℕ := offsetof fields 5
def arg3 : ℕ := offsetof fields 6

@[simp] theorem threadId_off : threadId = 48 := rfl
@[simp] theorem api_off : api = 52 := rfl
@[simp] theorem arg0_off : arg0 = 56 := rfl
@[simp] theorem arg1_off : arg1 = 64 := rfl
@[simp] theorem arg2_off : arg2 = 72 := rfl
@[simp] theorem arg3_off : arg3 = 80 := rfl

end BehaviorCallRecord

namespace ProtectionEventRecord

def fields : List CField :=
  [recordHeader, ulong, uchar, uchar, uchar, uchar, ulong64, ulong64, ulong64]

def protectedPid : ℕ := offsetof fields 1
def targetIsThread : ℕ := offsetof fields 2
def protectedCreateTime : ℕ := offsetof fields 6
def originalDesiredAccess : ℕ := offsetof fields 7
def strippedAccess : ℕ := offsetof fields 8

@[simp] theorem protectedPid_off : protectedPid = 48 := rfl
@[simp] theorem targetIsThread_off : targetIsThread = 52 := rfl
@[simp] theorem protectedCreateTime_off : protectedCreateTime = 56 := rfl
@[simp] theorem originalDesiredAccess_off : originalDesiredAccess = 64 := rfl
@[simp] theorem strippedAccess_off : strippedAccess = 72 := rfl

end ProtectionEventRecord

/-! ## Fixed extents on the wire -/

-- Some are `sizeof`, tail padding included, and some are the packed end of the last field.
def processExitedFixed : ℕ := sizeof RecordHeader.fields
def processCreatedFixed : ℕ := sizeof ProcessCreatedRecord.fields
def threadFixed : ℕ := 52
def imageLoadedFixed : ℕ := sizeof ImageLoadedRecord.fields
def registryKeyFixed : ℕ := 52
def registrySetValueFixed : ℕ := sizeof RegistrySetValueRecord.fields
def fileFixed : ℕ := 52
def fileWrittenFixed : ℕ := sizeof FileWrittenRecord.fields
def fileRenamedFixed : ℕ := sizeof FileRenamedRecord.fields
def dropCapturedFixed : ℕ := 60
def behaviorCallFixed : ℕ := sizeof BehaviorCallRecord.fields
def protectionEventFixed : ℕ := sizeof ProtectionEventRecord.fields

@[simp] theorem processExitedFixed_eq : processExitedFixed = 48 := rfl
@[simp] theorem processCreatedFixed_eq : processCreatedFixed = 64 := rfl
@[simp] theorem threadFixed_eq : threadFixed = 52 := rfl
@[simp] theorem imageLoadedFixed_eq : imageLoadedFixed = 64 := rfl
@[simp] theorem registryKeyFixed_eq : registryKeyFixed = 52 := rfl
@[simp] theorem registrySetValueFixed_eq : registrySetValueFixed = 64 := rfl
@[simp] theorem fileFixed_eq : fileFixed = 52 := rfl
@[simp] theorem fileWrittenFixed_eq : fileWrittenFixed = 64 := rfl
@[simp] theorem fileRenamedFixed_eq : fileRenamedFixed = 56 := rfl
@[simp] theorem dropCapturedFixed_eq : dropCapturedFixed = 60 := rfl
@[simp] theorem behaviorCallFixed_eq : behaviorCallFixed = 88 := rfl
@[simp] theorem protectionEventFixed_eq : protectionEventFixed = 80 := rfl

def maxRecordBytes : ℕ := processCreatedFixed + maxCommandLineBytes + maxImageNameBytes

@[simp] theorem maxRecordBytes_eq : maxRecordBytes = 9280 := rfl

end SecOutfall.Wire
