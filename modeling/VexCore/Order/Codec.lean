import VexCore.Common.Command
import VexCore.Framework.Bytes

/-!
# The wire format of a command

A message header of eight bytes and a block of fifty-six, written and read field by field at
fixed offsets of a byte buffer. The numbers are little-endian. This is the release build, where
the assertion on the template id is not compiled.
-/

namespace VexCore.Wire

open Framework

/-- A read or write out of bounds panics; an unknown enumeration value is reported. -/
inductive Fault
  | panic
  | serde (message : String)
deriving DecidableEq, Repr

def putBytesAt (data : List UInt8) (index : Nat) (bytes : List UInt8) :
    Except Fault (List UInt8) :=
  if index + bytes.length ≤ data.length then .ok (overwrite data index bytes) else .error .panic

def putU8At (data : List UInt8) (index value : Nat) : Except Fault (List UInt8) :=
  putBytesAt data index (toLeBytes 1 value)

def putU16At (data : List UInt8) (index value : Nat) : Except Fault (List UInt8) :=
  putBytesAt data index (toLeBytes 2 value)

def putU32At (data : List UInt8) (index value : Nat) : Except Fault (List UInt8) :=
  putBytesAt data index (toLeBytes 4 value)

def putU64At (data : List UInt8) (index value : Nat) : Except Fault (List UInt8) :=
  putBytesAt data index (toLeBytes 8 value)

def getBytesAt (data : List UInt8) (index n : Nat) : Except Fault (List UInt8) :=
  if index + n ≤ data.length then .ok (slice data index n) else .error .panic

def getU8At (data : List UInt8) (index : Nat) : Except Fault Nat :=
  (getBytesAt data index 1).map fromLeBytes

def getU16At (data : List UInt8) (index : Nat) : Except Fault Nat :=
  (getBytesAt data index 2).map fromLeBytes

def getU32At (data : List UInt8) (index : Nat) : Except Fault Nat :=
  (getBytesAt data index 4).map fromLeBytes

def getU64At (data : List UInt8) (index : Nat) : Except Fault Nat :=
  (getBytesAt data index 8).map fromLeBytes

/-- An enumeration of the wire format; unknown bytes read as the null value. -/
inductive SbeEnum (α : Type)
  | value (a : α)
  | nullVal

def encodeCommandType : OrderCommandType → Nat
  | .placeOrder => 0x0
  | .cancelOrder => 0x1
  | .depositFunds => 0x2
  | .withdrawFunds => 0x3

def decodeCommandType : Nat → SbeEnum OrderCommandType
  | 0x0 => .value .placeOrder
  | 0x1 => .value .cancelOrder
  | 0x2 => .value .depositFunds
  | 0x3 => .value .withdrawFunds
  | _ => .nullVal

def encodeSide : Side → Nat
  | .ask => 0x0
  | .bid => 0x1

def decodeSide : Nat → SbeEnum Side
  | 0x0 => .value .ask
  | 0x1 => .value .bid
  | _ => .nullVal

def encodeTimeInForce : TimeInForce → Nat
  | .gtc => 0x0
  | .ioc => 0x1
  | .fok => 0x2

def decodeTimeInForce : Nat → SbeEnum TimeInForce
  | 0x0 => .value .gtc
  | 0x1 => .value .ioc
  | 0x2 => .value .fok
  | _ => .nullVal

def encodeStatus : Status → Nat
  | .rejected => 0x0
  | .placed => 0x1
  | .cancelled => 0x2
  | .partiallyFilled => 0x3
  | .filled => 0x4
  | .processing => 0x5
  | .processed => 0x6

def decodeStatus : Nat → SbeEnum Status
  | 0x0 => .value .rejected
  | 0x1 => .value .placed
  | 0x2 => .value .cancelled
  | 0x3 => .value .partiallyFilled
  | 0x4 => .value .filled
  | 0x5 => .value .processing
  | 0x6 => .value .processed
  | _ => .nullVal

/-- The conversion into the enumeration of the program; the null value is an error. -/
def SbeEnum.tryInto {α : Type} (message : String) : SbeEnum α → Except Fault α
  | .value a => .ok a
  | .nullVal => .error (.serde message)

def sbeBlockLength : Nat := 64
def sbeTemplateId : Nat := 1
def sbeSchemaId : Nat := 1
def sbeSchemaVersion : Nat := 1

/-- Length of the message header. -/
def encodedLength : Nat := 8

def encodeHeader (buf : List UInt8) (offset : Nat) : Except Fault (List UInt8) := do
  let buf ← putU16At buf offset sbeBlockLength
  let buf ← putU16At buf (offset + 2) sbeTemplateId
  let buf ← putU16At buf (offset + 4) sbeSchemaId
  putU16At buf (offset + 6) sbeSchemaVersion

def encodeOrderCommand (cmd : OrderCommand) (buf : List UInt8) : Except Fault (List UInt8) := do
  let offset := encodedLength
  let buf ← encodeHeader buf 0
  let buf ← putU8At buf offset (encodeCommandType cmd.command)
  let buf ← putU64At buf (offset + 1) cmd.clientOrderId
  let buf ← putU64At buf (offset + 9) cmd.orderId
  let buf ← putU32At buf (offset + 25) cmd.marketId
  let buf ← putU64At buf (offset + 17) cmd.userId
  let buf ← putU64At buf (offset + 29) cmd.price
  let buf ← putU64At buf (offset + 37) cmd.size
  let buf ← putU8At buf (offset + 45) (encodeSide cmd.side)
  let buf ← putU8At buf (offset + 46) (encodeTimeInForce cmd.timeInForce)
  let buf ← putU64At buf (offset + 47) cmd.timestamp
  putU8At buf (offset + 55) (encodeStatus cmd.status)

/-- Of the header only the block length and the version are read, and no value is checked. -/
def decodeHeader (buf : List UInt8) (offset : Nat) : Except Fault Unit := do
  let _ ← getU16At buf offset
  let _ ← getU16At buf (offset + 6)

def decodeOrderCommand (buf : List UInt8) : Except Fault OrderCommand := do
  decodeHeader buf 0
  let offset := encodedLength
  let command ← (decodeCommandType (← getU8At buf offset)).tryInto "NullVal"
  let orderId ← getU64At buf (offset + 9)
  let clientOrderId ← getU64At buf (offset + 1)
  let marketId ← getU32At buf (offset + 25)
  let userId ← getU64At buf (offset + 17)
  let price ← getU64At buf (offset + 29)
  let size ← getU64At buf (offset + 37)
  let side ← (decodeSide (← getU8At buf (offset + 45))).tryInto "NullVal"
  let timeInForce ←
    (decodeTimeInForce (← getU8At buf (offset + 46))).tryInto "Unknown TimeInForce variant"
  let timestamp ← getU64At buf (offset + 47)
  let status ← (decodeStatus (← getU8At buf (offset + 55))).tryInto "Invalid status: NullVal"
  return { command, orderId, clientOrderId, marketId, userId, price, size, side, timeInForce,
           timestamp, status }

/-- The fields of a command are words of their widths. -/
structure Representable (cmd : OrderCommand) : Prop where
  clientOrderId : cmd.clientOrderId < 2 ^ 64
  orderId : cmd.orderId < 2 ^ 64
  userId : cmd.userId < 2 ^ 64
  marketId : cmd.marketId < 2 ^ 32
  price : cmd.price < 2 ^ 64
  size : cmd.size < 2 ^ 64
  timestamp : cmd.timestamp < 2 ^ 64

/-- The writes of an encoding, in the order they are made. -/
def writes (cmd : OrderCommand) : List Write :=
  [⟨0, toLeBytes 2 sbeBlockLength⟩, ⟨2, toLeBytes 2 sbeTemplateId⟩, ⟨4, toLeBytes 2 sbeSchemaId⟩,
    ⟨6, toLeBytes 2 sbeSchemaVersion⟩, ⟨8, toLeBytes 1 (encodeCommandType cmd.command)⟩,
    ⟨9, toLeBytes 8 cmd.clientOrderId⟩, ⟨17, toLeBytes 8 cmd.orderId⟩,
    ⟨33, toLeBytes 4 cmd.marketId⟩, ⟨25, toLeBytes 8 cmd.userId⟩, ⟨37, toLeBytes 8 cmd.price⟩,
    ⟨45, toLeBytes 8 cmd.size⟩, ⟨53, toLeBytes 1 (encodeSide cmd.side)⟩,
    ⟨54, toLeBytes 1 (encodeTimeInForce cmd.timeInForce)⟩, ⟨55, toLeBytes 8 cmd.timestamp⟩,
    ⟨63, toLeBytes 1 (encodeStatus cmd.status)⟩]

/-- No write passes byte 64, and no two overlap. -/
theorem writes_stop (cmd : OrderCommand) : ∀ w ∈ writes cmd, w.stop ≤ 64 := by
  simp [writes, Write.stop]

theorem writes_disjoint (cmd : OrderCommand) : (writes cmd).Pairwise Write.Disjoint := by
  simp [writes, Write.Disjoint, Write.stop]

theorem putBytesAt_of_fits {data : List UInt8} {index : Nat} {bytes : List UInt8}
    (h : index + bytes.length ≤ data.length) :
    putBytesAt data index bytes = .ok (overwrite data index bytes) := if_pos h

theorem getBytesAt_of_fits {data : List UInt8} {index n : Nat} (h : index + n ≤ data.length) :
    getBytesAt data index n = .ok (slice data index n) := if_pos h

/-- An encoding is its writes, one after the other. -/
theorem encodeOrderCommand_eq (cmd : OrderCommand) (buf : List UInt8) :
    encodeOrderCommand cmd buf =
      (writes cmd).foldlM (fun data w => putBytesAt data w.index w.bytes) buf := by
  simp [encodeOrderCommand, encodeHeader, writes, putU8At, putU16At, putU32At, putU64At,
    encodedLength]

theorem foldlM_putBytesAt {data : List UInt8} {ws : List Write}
    (fits : ∀ w ∈ ws, w.stop ≤ data.length) :
    ws.foldlM (fun data w => putBytesAt data w.index w.bytes) data =
      .ok (overwriteAll data ws) := by
  induction ws generalizing data with
  | nil => rfl
  | cons w rest ih =>
    have hfirst := length_overwrite (fits w List.mem_cons_self)
    rw [List.foldlM_cons, putBytesAt_of_fits (fits w List.mem_cons_self)]
    refine ih ?_
    intro v hv
    rw [hfirst]
    exact fits v (List.mem_cons_of_mem w hv)

section Read

variable {cmd : OrderCommand} {buf : List UInt8}

theorem getBytesAt_encoded (hbuf : 64 ≤ buf.length) {w : Write} (hw : w ∈ writes cmd) :
    getBytesAt (overwriteAll buf (writes cmd)) w.index w.bytes.length = .ok w.bytes := by
  have fits : ∀ v ∈ writes cmd, v.stop ≤ buf.length :=
    fun v hv => (writes_stop cmd v hv).trans hbuf
  rw [getBytesAt_of_fits]
  · rw [slice_overwriteAll fits (writes_disjoint cmd) hw]
  · rw [length_overwriteAll fits]
    exact fits w hw

theorem getWord_encoded (hbuf : 64 ≤ buf.length) {index n v : Nat} (hv : v < 256 ^ n)
    (hw : ⟨index, toLeBytes n v⟩ ∈ writes cmd) :
    (getBytesAt (overwriteAll buf (writes cmd)) index n).map fromLeBytes = .ok v := by
  have hread := getBytesAt_encoded hbuf hw
  have hvalue := fromLeBytes_toLeBytes n v
  rw [Nat.mod_eq_of_lt hv] at hvalue
  rw [length_toLeBytes] at hread
  rw [hread]
  exact congrArg Except.ok hvalue

variable (hbuf : 64 ≤ buf.length) {index v : Nat}

include hbuf

theorem getU8At_encoded (hv : v < 2 ^ 8) (hw : ⟨index, toLeBytes 1 v⟩ ∈ writes cmd) :
    getU8At (overwriteAll buf (writes cmd)) index = .ok v := getWord_encoded hbuf hv hw

theorem getU16At_encoded (hv : v < 2 ^ 16) (hw : ⟨index, toLeBytes 2 v⟩ ∈ writes cmd) :
    getU16At (overwriteAll buf (writes cmd)) index = .ok v := getWord_encoded hbuf hv hw

theorem getU32At_encoded (hv : v < 2 ^ 32) (hw : ⟨index, toLeBytes 4 v⟩ ∈ writes cmd) :
    getU32At (overwriteAll buf (writes cmd)) index = .ok v := getWord_encoded hbuf hv hw

theorem getU64At_encoded (hv : v < 2 ^ 64) (hw : ⟨index, toLeBytes 8 v⟩ ∈ writes cmd) :
    getU64At (overwriteAll buf (writes cmd)) index = .ok v := getWord_encoded hbuf hv hw

end Read

/-- What the wire format carries of a command; the rest takes its default. -/
def carried (cmd : OrderCommand) : OrderCommand :=
  { cmd with
    events := []
    balance := ({}, {})
    l2Data := none
    routeGatewayId := 0
    originalSize := 0 }

/-! Every enumeration fits its byte and is decoded to itself. -/

theorem encodeCommandType_lt (c : OrderCommandType) : encodeCommandType c < 2 ^ 8 := by
  cases c <;> decide

theorem encodeSide_lt (side : Side) : encodeSide side < 2 ^ 8 := by
  cases side <;> decide

theorem encodeTimeInForce_lt (t : TimeInForce) : encodeTimeInForce t < 2 ^ 8 := by
  cases t <;> decide

theorem encodeStatus_lt (status : Status) : encodeStatus status < 2 ^ 8 := by
  cases status <;> decide

@[simp] theorem decodeCommandType_encode (c : OrderCommandType) :
    decodeCommandType (encodeCommandType c) = .value c := by cases c <;> rfl

@[simp] theorem decodeSide_encode (side : Side) :
    decodeSide (encodeSide side) = .value side := by cases side <;> rfl

@[simp] theorem decodeTimeInForce_encode (t : TimeInForce) :
    decodeTimeInForce (encodeTimeInForce t) = .value t := by cases t <;> rfl

@[simp] theorem decodeStatus_encode (status : Status) :
    decodeStatus (encodeStatus status) = .value status := by cases status <;> rfl

theorem decodeHeader_encoded {cmd : OrderCommand} {buf : List UInt8} (hbuf : 64 ≤ buf.length) :
    decodeHeader (overwriteAll buf (writes cmd)) 0 = .ok () := by
  have hlength : getU16At (overwriteAll buf (writes cmd)) 0 = .ok sbeBlockLength :=
    getU16At_encoded hbuf (by decide) (by simp [writes])
  have hversion : getU16At (overwriteAll buf (writes cmd)) (0 + 6) = .ok sbeSchemaVersion :=
    getU16At_encoded hbuf (by decide) (by simp [writes])
  rw [decodeHeader, hlength, hversion]
  rfl

theorem decodeOrderCommand_encoded {cmd : OrderCommand} {buf : List UInt8}
    (h : Representable cmd) (hbuf : 64 ≤ buf.length) :
    decodeOrderCommand (overwriteAll buf (writes cmd)) = .ok (carried cmd) := by
  have hcommand := @getU8At_encoded cmd _ hbuf encodedLength _
    (encodeCommandType_lt cmd.command) (by simp [writes, encodedLength])
  have hclient := @getU64At_encoded cmd _ hbuf (encodedLength + 1) _ h.clientOrderId
    (by simp [writes, encodedLength])
  have horder := @getU64At_encoded cmd _ hbuf (encodedLength + 9) _ h.orderId
    (by simp [writes, encodedLength])
  have huser := @getU64At_encoded cmd _ hbuf (encodedLength + 17) _ h.userId
    (by simp [writes, encodedLength])
  have hmarket := @getU32At_encoded cmd _ hbuf (encodedLength + 25) _ h.marketId
    (by simp [writes, encodedLength])
  have hprice := @getU64At_encoded cmd _ hbuf (encodedLength + 29) _ h.price
    (by simp [writes, encodedLength])
  have hsize := @getU64At_encoded cmd _ hbuf (encodedLength + 37) _ h.size
    (by simp [writes, encodedLength])
  have hside := @getU8At_encoded cmd _ hbuf (encodedLength + 45) _
    (encodeSide_lt cmd.side) (by simp [writes, encodedLength])
  have htif := @getU8At_encoded cmd _ hbuf (encodedLength + 46) _
    (encodeTimeInForce_lt cmd.timeInForce) (by simp [writes, encodedLength])
  have htimestamp := @getU64At_encoded cmd _ hbuf (encodedLength + 47) _ h.timestamp
    (by simp [writes, encodedLength])
  have hstatus := @getU8At_encoded cmd _ hbuf (encodedLength + 55) _
    (encodeStatus_lt cmd.status) (by simp [writes, encodedLength])
  simp only [decodeOrderCommand, decodeHeader_encoded hbuf, hcommand, hclient, horder, hmarket,
    huser, hprice, hsize, hside, htif, htimestamp, hstatus, bind, Except.bind, SbeEnum.tryInto,
    decodeCommandType_encode, decodeSide_encode, decodeTimeInForce_encode, decodeStatus_encode]
  rfl

/-- Encoding succeeds in any buffer of at least 64 bytes, touches only the first 64, and decoding
gives back every field that is on the wire, with defaults elsewhere. -/
theorem decode_encode (cmd : OrderCommand) (h : Representable cmd) (buf : List UInt8)
    (hbuf : 64 ≤ buf.length) :
    ∃ buf', encodeOrderCommand cmd buf = .ok buf' ∧ buf'.length = buf.length ∧
      buf'.drop 64 = buf.drop 64 ∧ decodeOrderCommand buf' = .ok (carried cmd) := by
  have fits : ∀ w ∈ writes cmd, w.stop ≤ buf.length :=
    fun w hw => (writes_stop cmd w hw).trans hbuf
  refine ⟨overwriteAll buf (writes cmd), ?_, ?_, ?_, ?_⟩
  · rw [encodeOrderCommand_eq, foldlM_putBytesAt fits]
  · exact length_overwriteAll fits
  · exact drop_overwriteAll fits (writes_stop cmd)
  · exact decodeOrderCommand_encoded h hbuf

/-- A limit bid through a buffer of 70 bytes. -/
theorem decode_encode_limit :
    ∃ buf', encodeOrderCommand (.limit .bid .ioc 9 3 100 5) (List.replicate 70 7) = .ok buf' ∧
      buf'.length = (List.replicate 70 7).length ∧
      buf'.drop 64 = (List.replicate 70 (7 : UInt8)).drop 64 ∧
      decodeOrderCommand buf' = .ok (carried (.limit .bid .ioc 9 3 100 5)) :=
  decode_encode (.limit .bid .ioc 9 3 100 5)
    ⟨by decide, by decide, by decide, by decide, by decide, by decide, by decide⟩
    (List.replicate 70 7) (by decide)

end VexCore.Wire
