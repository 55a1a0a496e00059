/-
# RollingRaft.Storage.WalFormat — the bytes of the write-ahead log.

A segment file is a header of 16 bytes, records, and a trailer of 8 bytes that repeats where the
records end. A record is its CRC, the length of its payload, its type and its payload; the payload
of a log entry is a protobuf message or, in old segments, a JSON object with Base64 strings. This
module has the encoders and the readers of `wal_persister.cpp`, byte for byte.

Protobuf and JSON are third-party code and parameters (`WalCodec`). What is asked of them is
`WalCodec.Lawful`: what was written is read back, and texts are what their grammars say.
-/
import RollingRaft.Json
import RollingRaft.Lib.FileTable
import RollingRaft.Lib.LittleEndian
import RollingRaft.Storage.DenseIndex
import RollingRaft.Storage.GroupCommit

namespace RollingRaft

open Lib

/-! ## §1 — Constants. -/

def kMagic : Nat := 0x57414C30

def kVersion : Nat := 1

def kHeaderSize : Nat := 16

def kTrailerSize : Nat := 8

def kMaxRecordSize : Nat := 16 * 1024 * 1024

def kFormatVersionJson : Nat := 1

def kFormatVersionProtobuf : Nat := 2

def kMaxSegmentEntries : Nat := 10000

def kMaxSegmentSize : Nat := 64 * 1024 * 1024

def kWriteBufferSize : Nat := 1024 * 1024

/-- `WALRecordType`; `other` is a value of the field that the enumeration does not name. -/
inductive WALRecordType where
  | logEntry | truncatePrefix | truncateSuffix
  | other (code : Nat)
  deriving DecidableEq

namespace WALRecordType

def code : WALRecordType → Nat
  | logEntry => 1
  | truncatePrefix => 3
  | truncateSuffix => 4
  | other code => code

def ofCode : Nat → WALRecordType
  | 1 => logEntry
  | 3 => truncatePrefix
  | 4 => truncateSuffix
  | code => other code

end WALRecordType

structure WALRecord where
  type : WALRecordType
  payload : Bytes
  deriving DecidableEq

/-! ## §2 — CRC32. -/

def kCRC32Table : List UInt32 :=
  [0x00000000, 0x77073096, 0xee0e612c, 0x990951ba, 0x076dc419, 0x706af48f, 0xe963a535, 0x9e6495a3,
   0x0edb8832, 0x79dcb8a4, 0xe0d5e91e, 0x97d2d988, 0x09b64c2b, 0x7eb17cbd, 0xe7b82d07, 0x90bf1d91,
   0x1db71064, 0x6ab020f2, 0xf3b97148, 0x84be41de, 0x1adad47d, 0x6ddde4eb, 0xf4d4b551, 0x83d385c7,
   0x136c9856, 0x646ba8c0, 0xfd62f97a, 0x8a65c9ec, 0x14015c4f, 0x63066cd9, 0xfa0f3d63, 0x8d080df5,
   0x3b6e20c8, 0x4c69105e, 0xd56041e4, 0xa2677172, 0x3c03e4d1, 0x4b04d447, 0xd20d85fd, 0xa50ab56b,
   0x35b5a8fa, 0x42b2986c, 0xdbbbc9d6, 0xacbcf940, 0x32d86ce3, 0x45df5c75, 0xdcd60dcf, 0xabd13d59,
   0x26d930ac, 0x51de003a, 0xc8d75180, 0xbfd06116, 0x21b4f4b5, 0x56b3c423, 0xcfba9599, 0xb8bda50f,
   0x2802b89e, 0x5f058808, 0xc60cd9b2, 0xb10be924, 0x2f6f7c87, 0x58684c11, 0xc1611dab, 0xb6662d3d,
   0x76dc4190, 0x01db7106, 0x98d220bc, 0xefd5102a, 0x71b18589, 0x06b6b51f, 0x9fbfe4a5, 0xe8b8d433,
   0x7807c9a2, 0x0f00f934, 0x9609a88e, 0xe10e9818, 0x7f6a0dbb, 0x086d3d2d, 0x91646c97, 0xe6635c01,
   0x6b6b51f4, 0x1c6c6162, 0x856530d8, 0xf262004e, 0x6c0695ed, 0x1b01a57b, 0x8208f4c1, 0xf50fc457,
   0x65b0d9c6, 0x12b7e950, 0x8bbeb8ea, 0xfcb9887c, 0x62dd1ddf, 0x15da2d49, 0x8cd37cf3, 0xfbd44c65,
   0x4db26158, 0x3ab551ce, 0xa3bc0074, 0xd4bb30e2, 0x4adfa541, 0x3dd895d7, 0xa4d1c46d, 0xd3d6f4fb,
   0x4369e96a, 0x346ed9fc, 0xad678846, 0xda60b8d0, 0x44042d73, 0x33031de5, 0xaa0a4c5f, 0xdd0d7cc9,
   0x5005713c, 0x270241aa, 0xbe0b1010, 0xc90c2086, 0x5768b525, 0x206f85b3, 0xb966d409, 0xce61e49f,
   0x5edef90e, 0x29d9c998, 0xb0d09822, 0xc7d7a8b4, 0x59b33d17, 0x2eb40d81, 0xb7bd5c3b, 0xc0ba6cad,
   0xedb88320, 0x9abfb3b6, 0x03b6e20c, 0x74b1d29a, 0xead54739, 0x9dd277af, 0x04db2615, 0x73dc1683,
   0xe3630b12, 0x94643b84, 0x0d6d6a3e, 0x7a6a5aa8, 0xe40ecf0b, 0x9309ff9d, 0x0a00ae27, 0x7d079eb1,
   0xf00f9344, 0x8708a3d2, 0x1e01f268, 0x6906c2fe, 0xf762575d, 0x806567cb, 0x196c3671, 0x6e6b06e7,
   0xfed41b76, 0x89d32be0, 0x10da7a5a, 0x67dd4acc, 0xf9b9df6f, 0x8ebeeff9, 0x17b7be43, 0x60b08ed5,
   0xd6d6a3e8, 0xa1d1937e, 0x38d8c2c4, 0x4fdff252, 0xd1bb67f1, 0xa6bc5767, 0x3fb506dd, 0x48b2364b,
   0xd80d2bda, 0xaf0a1b4c, 0x36034af6, 0x41047a60, 0xdf60efc3, 0xa867df55, 0x316e8eef, 0x4669be79,
   0xcb61b38c, 0xbc66831a, 0x256fd2a0, 0x5268e236, 0xcc0c7795, 0xbb0b4703, 0x220216b9, 0x5505262f,
   0xc5ba3bbe, 0xb2bd0b28, 0x2bb45a92, 0x5cb36a04, 0xc2d7ffa7, 0xb5d0cf31, 0x2cd99e8b, 0x5bdeae1d,
   0x9b64c2b0, 0xec63f226, 0x756aa39c, 0x026d930a, 0x9c0906a9, 0xeb0e363f, 0x72076785, 0x05005713,
   0x95bf4a82, 0xe2b87a14, 0x7bb12bae, 0x0cb61b38, 0x92d28e9b, 0xe5d5be0d, 0x7cdcefb7, 0x0bdbdf21,
   0x86d3d2d4, 0xf1d4e242, 0x68ddb3f8, 0x1fda836e, 0x81be16cd, 0xf6b9265b, 0x6fb077e1, 0x18b74777,
   0x88085ae6, 0xff0f6a70, 0x66063bca, 0x11010b5c, 0x8f659eff, 0xf862ae69, 0x616bffd3, 0x166ccf45,
   0xa00ae278, 0xd70dd2ee, 0x4e048354, 0x3903b3c2, 0xa7672661, 0xd06016f7, 0x4969474d, 0x3e6e77db,
   0xaed16a4a, 0xd9d65adc, 0x40df0b66, 0x37d83bf0, 0xa9bcae53, 0xdebb9ec5, 0x47b2cf7f, 0x30b5ffe9,
   0xbdbdf21c, 0xcabac28a, 0x53b39330, 0x24b4a3a6, 0xbad03605, 0xcdd70693, 0x54de5729, 0x23d967bf,
   0xb3667a2e, 0xc4614ab8, 0x5d681b02, 0x2a6f2b94, 0xb40bbe37, 0xc30c8ea1, 0x5a05df1b, 0x2d02ef8d]

def computeCRC32 (data : Bytes) : UInt32 :=
  ~~~ data.foldl (fun crc c =>
    (crc >>> 8) ^^^ kCRC32Table.getD ((crc ^^^ c.toUInt32) &&& 0xFF).toNat 0) 0xFFFFFFFF

/-- The table is that of the reflected polynomial `0xEDB88320`. -/
def crcEntry (n : Nat) : UInt32 :=
  (List.range 8).foldl (fun c _ => if c &&& 1 = 1 then (0xEDB88320 : UInt32) ^^^ (c >>> 1) else c >>> 1)
    (UInt32.ofNat n)

example : kCRC32Table = (List.range 256).map crcEntry := by decide +kernel

example : computeCRC32 (ascii "123456789") = 0xCBF43926 := by decide +kernel

/-! ## §3 — Third-party codecs. -/

/-- `RaftLogEntryProto`: the numbers are 64 bits wide. -/
structure RaftLogEntryProto where
  index : Nat
  term : Nat
  data : Bytes
  command : Bytes
  checksum : Nat
  deriving DecidableEq

/-- What the code asks of the protobuf and JSON libraries. -/
structure WalCodec where
  /-- `proto.SerializeToString`. -/
  serialize : RaftLogEntryProto → Option Bytes
  /-- `proto.ParseFromString`. -/
  parseProto : Bytes → Option RaftLogEntryProto
  json : JsonText
  /-- `static_cast<uint64_t>(double)`. -/
  doubleToUInt64 : UInt64 → Nat
  /-- `j.dump(2)` of an object of numbers. -/
  dumpIndented : Json → Bytes
  /-- `stream >> j`. -/
  readStream : Bytes → Except Bytes Json

/-- The object that `SaveMeta` dumps. -/
def metaValue (firstIndex lastIndex lastSegmentId : Nat) : Json :=
  .object [(ascii "first_index", .unsigned firstIndex), (ascii "last_index", .unsigned lastIndex),
    (ascii "last_segment_id", .unsigned lastSegmentId)]

/-- The documented behaviour of the two libraries. A message is read back and starts with the tag of
one of its fields; an object of numbers is read back, and the text of an object starts with a brace,
a blank or the byte order mark. -/
structure WalCodec.Lawful (codec : WalCodec) : Prop where
  parse_serialize : ∀ {p : RaftLogEntryProto} {payload : Bytes},
    p.index < 2 ^ 64 → p.term < 2 ^ 64 → p.checksum < 2 ^ 64 →
      codec.serialize p = some payload → codec.parseProto payload = some p
  serialize_head : ∀ {p : RaftLogEntryProto} {payload : Bytes} {b : UInt8},
    codec.serialize p = some payload → payload.head? = some b → b ∈ [8, 16, 26, 34, 40]
  parse_dump : ∀ {key : Bytes} {n : Nat},
    key = ascii "before_index" ∨ key = ascii "from_index" → n < 2 ^ 64 →
      ∃ text, codec.json.dump (.object [(key, .unsigned n)]) = .ok text ∧
        codec.json.parse text = .ok (.object [(key, .unsigned n)]) ∧ text.length ≤ key.length + 25
  parse_object_head : ∀ {text : Bytes} {fields : List (Bytes × Json)},
    codec.json.parse text = .ok (.object fields) →
      ∃ b ∈ ([9, 10, 13, 32, 123, 239] : List UInt8), text.head? = some b
  readStream_dumpIndented : ∀ {firstIndex lastIndex lastSegmentId : Nat},
    firstIndex < 2 ^ 64 → lastIndex < 2 ^ 64 → lastSegmentId < 2 ^ 64 →
      codec.readStream (codec.dumpIndented (metaValue firstIndex lastIndex lastSegmentId))
        = .ok (metaValue firstIndex lastIndex lastSegmentId)

def RaftLogEntry.toProto (e : RaftLogEntry) : RaftLogEntryProto :=
  ⟨e.index, e.term, e.data, e.command, e.checksum⟩

/-! ## §4 — Payloads. -/

def base64Lookup (c : UInt8) : Option UInt8 :=
  if 65 ≤ c && c ≤ 90 then some (c - 65)
  else if 97 ≤ c && c ≤ 122 then some (c - 97 + 26)
  else if 48 ≤ c && c ≤ 57 then some (c - 48 + 52)
  else if c = 43 then some 62
  else if c = 47 then some 63
  else none

def base64Triple (a b c d : UInt8) : Bytes :=
  [(a <<< 2) + ((b &&& 0x30) >>> 4), ((b &&& 0x0f) <<< 4) + ((c &&& 0x3c) >>> 2),
    ((c &&& 0x03) <<< 6) + d]

/-- What is left when the text ends inside a group. -/
def base64Rest : List UInt8 → Bytes
  | [] => []
  | [a] => (base64Triple a 0 0 0).take 0
  | [a, b] => (base64Triple a b 0 0).take 1
  | a :: b :: c :: _ => (base64Triple a b c 0).take 2

/-- The loop of `Base64Decode`, with the values of the group being read. -/
def base64Loop (group : List UInt8) : Bytes → Bytes
  | [] => base64Rest group
  | c :: rest =>
    if c = 61 then base64Rest group
    else
      match base64Lookup c with
      | none => base64Loop group rest
      | some v =>
        match group with
        | [a, b, d] => base64Triple a b d v ++ base64Loop [] rest
        | group => base64Loop (group ++ [v]) rest

def base64Decode (encoded : Bytes) : Bytes := base64Loop [] encoded

example : base64Decode (ascii "aGVsbG8=") = ascii "hello" := by decide +kernel

section Payloads

variable (codec : WalCodec)

/-- `j[key]` of a value that is not constant: a missing member is created as `null`. -/
def Json.member (j : Json) (key : Bytes) : Except Bytes Json :=
  match j with
  | .object fields => .ok ((fields.lookup key).getD .null)
  | .null => .ok .null
  | j => .error (ascii
      "[json.exception.type_error.305] cannot use operator[] with a string argument with "
        ++ j.typeName)

/-- `j.get<uint64_t>()`. -/
def Json.asUInt64 (j : Json) : Except Bytes Nat :=
  match j with
  | .unsigned n => .ok (n % 2 ^ 64)
  | .integer i => .ok (Json.toUInt64 i)
  | .float bits => .ok (codec.doubleToUInt64 bits)
  | j => .error (ascii "[json.exception.type_error.302] type must be number, but is " ++ j.typeName)

/-- `json::parse(payload)[key].get<uint64_t>()`. -/
def jsonNumber (payload key : Bytes) : Except Bytes Nat := do
  let j ← codec.json.parse payload
  let v ← j.member key
  v.asUInt64 codec

/-- `j.value("command", std::string())`. -/
def jsonCommand (j : Json) : Except Bytes Bytes :=
  match j with
  | .object _ =>
    match j.get? (ascii "command") with
    | some v => v.asString
    | none => .ok []
  | j => .error (ascii "[json.exception.type_error.306] cannot use value() with " ++ j.typeName)

/-- The `try` block of `ParseJsonPayload`. The fields of the entry are 32 bits wide. -/
def readJsonEntry (payload : Bytes) : Except Bytes RaftLogEntry := do
  let j ← codec.json.parse payload
  let index ← (← j.member (ascii "index")).asUInt64 codec
  let term ← (← j.member (ascii "term")).asUInt64 codec
  let data ← (← j.member (ascii "data")).asString
  let command ← jsonCommand j
  let checksum ← j.valueInt codec.json (ascii "checksum")
  return ⟨index % 2 ^ 32, term % 2 ^ 32, base64Decode data, base64Decode command,
    (checksum % 2 ^ 32).toNat⟩

/-- `Status::Corruption("Failed to parse log entry: " + what)`. -/
def entryUnreadable (what : Bytes) : StoreStatus :=
  .corruption (ascii "Failed to parse log entry: " ++ what)

/-- A checksum of zero is replaced by the CRC of the record. -/
def RaftLogEntry.withChecksum (e : RaftLogEntry) (fallback : Nat) : RaftLogEntry :=
  if e.checksum = 0 then { e with checksum := fallback } else e

def parseJsonPayload (payload : Bytes) (fallback : Nat) : Except StoreStatus RaftLogEntry :=
  match readJsonEntry codec payload with
  | .ok e => .ok (e.withChecksum fallback)
  | .error what => .error (entryUnreadable what)

/-- The entry of a parsed message: its fields are 32 bits wide. -/
def RaftLogEntryProto.toEntry (p : RaftLogEntryProto) : RaftLogEntry :=
  ⟨p.index % 2 ^ 32, p.term % 2 ^ 32, p.data, p.command, p.checksum % 2 ^ 32⟩

/-- `ParseProtobufPayload`, and the fallback to JSON that follows it. -/
def parsePayload (format : Nat) (payload : Bytes) (fallback : Nat) :
    Except StoreStatus RaftLogEntry :=
  if format = kFormatVersionProtobuf then
    match codec.parseProto payload with
    | some p => .ok (p.toEntry.withChecksum fallback)
    | none => parseJsonPayload codec payload fallback
  else parseJsonPayload codec payload fallback

def extractLogIndexFromPayload (payload : Bytes) (format : Nat) : Except StoreStatus Nat :=
  let fromJson : Except StoreStatus Nat :=
    match jsonNumber codec payload (ascii "index") with
    | .ok n => .ok n
    | .error what => .error (entryUnreadable what)
  if format = kFormatVersionProtobuf then
    match codec.parseProto payload with
    | some p => .ok p.index
    | none => fromJson
  else fromJson

end Payloads

/-! ## §5 — Headers, records and trailers. -/

/-- `WriteSegmentHeader`. -/
def segmentHeader (segmentId format : Nat) : Bytes :=
  leBytes 4 kMagic ++ leBytes 2 kVersion ++ leBytes 2 format ++ leBytes 8 segmentId

@[simp] theorem length_segmentHeader (segmentId format : Nat) :
    (segmentHeader segmentId format).length = kHeaderSize := by
  simp [segmentHeader, kHeaderSize]

def crcData (type : Nat) (payload : Bytes) : Bytes :=
  leBytes 4 payload.length ++ leBytes 2 type ++ payload

/-- A record as `AppendRecordToBufferLocked` writes it. -/
def encodeRecord (r : WALRecord) : Bytes :=
  leBytes 4 (computeCRC32 (crcData r.type.code r.payload)).toNat ++ crcData r.type.code r.payload

@[simp] theorem length_encodeRecord (r : WALRecord) :
    (encodeRecord r).length = 10 + r.payload.length := by
  simp [encodeRecord, crcData]
  omega

def segmentPath (walDir : Bytes) (segmentId : Nat) : Bytes :=
  walDir ++ ascii "/" ++ ascii (toString segmentId) ++ ascii ".wal"

/-- `OpenSegment`: the format version of a file with a valid header. -/
def openSegment (walDir : Bytes) (segmentId : Nat) (file : Option Bytes) :
    Except StoreStatus Nat :=
  let path := segmentPath walDir segmentId
  match file with
  | none => .error (.error (ascii "Failed to open segment: " ++ path))
  | some file =>
    if file.length < kHeaderSize then
      .error (.error (ascii "Failed to read segment header: " ++ path))
    else if leNat (file.take 4) ≠ kMagic then
      .error (.corruption (ascii "Invalid magic in segment: " ++ path))
    else if leNat ((file.drop 4).take 2) ≠ kVersion then
      .error (.corruption (ascii "Unsupported version in segment: " ++ path))
    else if leNat ((file.drop 8).take 8) ≠ segmentId then
      .error (.corruption (ascii "Segment id mismatch: " ++ path))
    else
      let format := leNat ((file.drop 6).take 2)
      .ok (if format = 0 then kFormatVersionJson else format)

/-- `WriteTrailer`. -/
def trailer (endOffset : Nat) : Bytes := leBytes 8 endOffset

/-- `ReadTrailer`: the last eight bytes of the file, whatever they are. -/
def readTrailer (file : Bytes) : Except StoreStatus Nat :=
  if file.length < kHeaderSize + kTrailerSize then
    .error (.corruption (ascii "Segment too small for trailer"))
  else
    let endOffset := leNat (file.drop (file.length - kTrailerSize))
    if file.length - kTrailerSize < endOffset then
      .error (.corruption (ascii "Invalid trailer end_offset"))
    else .ok endOffset

/-- One record at the front of `rest`, the bytes from `current` to the physical end of the file.
Every error here marks the point at which the file is cut. -/
def readRecord (segmentId current endOffset : Nat) (rest : Bytes) : Except Bytes WALRecord :=
  if rest.length < 4 then .error (ascii "Failed to read CRC (truncated tail)")
  else if rest.length < 8 then .error (ascii "Failed to read length (truncated tail)")
  else if rest.length < 10 then .error (ascii "Failed to read type (truncated tail)")
  else
    let crc := leNat (rest.take 4)
    let length := leNat ((rest.drop 4).take 4)
    let type := leNat ((rest.drop 8).take 2)
    if endOffset < current + (10 + length) then .error (ascii "Record extends beyond segment end")
    else if kMaxRecordSize < length then .error (ascii "Record too large")
    else if (rest.drop 10).length < length then .error (ascii "Failed to read payload")
    else
      let payload := (rest.drop 10).take length
      if (computeCRC32 (crcData type payload)).toNat ≠ crc then
        .error (ascii "CRC mismatch in segment " ++ ascii (toString segmentId))
      else .ok ⟨.ofCode type, payload⟩

/-- What a record does to the index. An error here leaves the file alone. -/
def recordEffect (codec : WalCodec) (format segmentId offset : Nat) (r : WALRecord) :
    Except StoreStatus DenseIndex.Effect :=
  match r.type with
  | .logEntry =>
    match extractLogIndexFromPayload codec r.payload format with
    | .ok index => .ok (.put index ⟨segmentId, offset, 10 + r.payload.length⟩)
    | .error status => .error status
  | .truncatePrefix =>
    match jsonNumber codec r.payload (ascii "before_index") with
    | .ok beforeIndex => .ok (.truncatePrefix beforeIndex)
    | .error what => .error (.corruption (ascii "Failed to parse truncate prefix: " ++ what))
  | .truncateSuffix =>
    match jsonNumber codec r.payload (ascii "from_index") with
    | .ok fromIndex => .ok (.truncateSuffix fromIndex)
    | .error what => .error (.corruption (ascii "Failed to parse truncate suffix: " ++ what))
  | .other _ => .ok .nothing

/-- The outcome of a scan: the index so far, the status, where to cut the file (`0`: nowhere), and
the records visited. -/
structure ScanResult where
  index : DenseIndex
  status : StoreStatus
  truncateOffset : Nat
  records : List WALRecord
  deriving DecidableEq

/-- The loop of `ScanSegment`. Every round reads at least ten bytes, so `fuel` is no bound when it is
at least the length of what is left. -/
def scanLoop (codec : WalCodec) (format segmentId endOffset : Nat) (callback : WALRecord → Bool) :
    Nat → Nat → Bytes → DenseIndex → ScanResult
  | 0, _, _, index => ⟨index, .ok, 0, []⟩
  | fuel + 1, current, rest, index =>
    if endOffset ≤ current then ⟨index, .ok, 0, []⟩
    else
      match readRecord segmentId current endOffset rest with
      | .error what => ⟨index, .corruption what, current, []⟩
      | .ok r =>
        match recordEffect codec format segmentId current r with
        | .error status => ⟨index, status, 0, []⟩
        | .ok effect =>
          if callback r then
            let result := scanLoop codec format segmentId endOffset callback fuel
              (current + (10 + r.payload.length)) (rest.drop (10 + r.payload.length))
              (index.apply effect)
            { result with records := r :: result.records }
          else ⟨index.apply effect, .ok, 0, [r]⟩

/-- `ScanSegment` of a file whose header was validated. A missing or invalid trailer is replaced by
the physical end of the file. -/
def scanSegment (codec : WalCodec) (format segmentId : Nat) (callback : WALRecord → Bool)
    (file : Bytes) (index : DenseIndex) : ScanResult :=
  match readTrailer file with
  | .ok endOffset =>
    scanLoop codec format segmentId endOffset callback (file.length + 1) kHeaderSize
      (file.drop kHeaderSize) index
  | .error _ =>
    if file.length ≤ kHeaderSize then ⟨index, .ok, 0, []⟩
    else
      scanLoop codec format segmentId file.length callback (file.length + 1) kHeaderSize
        (file.drop kHeaderSize) index

/-- The file after `TruncateSegmentFile`: cut, and given a trailer. -/
def truncateSegmentFile (file : Bytes) (truncateOffset : Nat) : Bytes :=
  file.take truncateOffset ++ trailer truncateOffset

/-- `ReadLogEntryAt` of a file with a valid header. -/
def readLogEntryAt (codec : WalCodec) (format segmentId fileOffset : Nat) (file : Bytes) :
    Except StoreStatus RaftLogEntry :=
  let rest := file.drop fileOffset
  if rest.length < 4 then .error (.error (ascii "Failed to read CRC"))
  else if rest.length < 8 then .error (.error (ascii "Failed to read length"))
  else if rest.length < 10 then .error (.error (ascii "Failed to read type"))
  else
    let crc := leNat (rest.take 4)
    let length := leNat ((rest.drop 4).take 4)
    let type := leNat ((rest.drop 8).take 2)
    if kMaxRecordSize < length then .error (.corruption (ascii "Record too large"))
    else if (rest.drop 10).length < length then
      .error (.corruption (ascii "Failed to read payload"))
    else
      let payload := (rest.drop 10).take length
      let computed := (computeCRC32 (crcData type payload)).toNat
      if computed ≠ crc then
        .error (.corruption (ascii "CRC mismatch in segment " ++ ascii (toString segmentId)))
      else if WALRecordType.ofCode type ≠ .logEntry then
        .error (.error (ascii "Not a log entry record"))
      else parsePayload codec format payload computed

end RollingRaft
