import VexCore.Networking.Allocators
import VexCore.Networking.Publications

/-!
# Handshake texts

What the core reads of `HELLO gateway-{id} {key}`, and the replies it refuses one with.
-/

namespace VexCore.Networking

/-- Unicode `White_Space`. -/
def isWhitespace (c : Char) : Bool :=
  let n := c.toNat
  (0x09 ≤ n && n ≤ 0x0D) || n = 0x20 || n = 0x85 || n = 0xA0 || n = 0x1680 ||
    (0x2000 ≤ n && n ≤ 0x200A) || n = 0x2028 || n = 0x2029 || n = 0x202F || n = 0x205F || n = 0x3000

/-- The words of a text, after the letters of `word` that belong to the first. -/
def splitWhitespaceFrom (word : List Char) : List Char → List (List Char)
  | [] => if word = [] then [] else [word]
  | c :: rest =>
      if isWhitespace c then
        if word = [] then splitWhitespaceFrom [] rest else word :: splitWhitespaceFrom [] rest
      else splitWhitespaceFrom (word ++ [c]) rest

def splitWhitespace (text : List Char) : List (List Char) := splitWhitespaceFrom [] text

inductive ParseIntError
  | empty
  | invalidDigit
  | posOverflow
  | negOverflow
deriving DecidableEq, Repr

def ParseIntError.toString : ParseIntError → String
  | .empty => "cannot parse integer from empty string"
  | .invalidDigit => "invalid digit found in string"
  | .posOverflow => "number too large to fit in target type"
  | .negOverflow => "number too small to fit in target type"

/-- The value of `digits` behind those that gave `result`, at most `bound`. -/
def parseDigits (bound : Nat) (overflow : ParseIntError) : Nat → List Char → Except ParseIntError Nat
  | result, [] => .ok result
  | result, c :: rest =>
      if c.isDigit then
        let next := result * 10 + (c.toNat - '0'.toNat)
        if next ≤ bound then parseDigits bound overflow next rest else .error overflow
      else .error .invalidDigit

/-- A sign alone is no number. -/
def parseMagnitude (bound : Nat) (overflow : ParseIntError) (digits : List Char) :
    Except ParseIntError Nat :=
  if digits = [] then .error .invalidDigit else parseDigits bound overflow 0 digits

/-- `parse::<u8>`. -/
def parseU8 : List Char → Except ParseIntError Nat
  | [] => .error .empty
  | '+' :: digits => parseMagnitude 255 .posOverflow digits
  | digits => parseMagnitude 255 .posOverflow digits

/-- `parse::<i32>`. -/
def parseI32 : List Char → Except ParseIntError Int
  | [] => .error .empty
  | '+' :: digits => (parseMagnitude (2 ^ 31 - 1) .posOverflow digits).map Int.ofNat
  | '-' :: digits => (parseMagnitude (2 ^ 31) .negOverflow digits).map fun n => -Int.ofNat n
  | digits => (parseMagnitude (2 ^ 31 - 1) .posOverflow digits).map Int.ofNat

/-- Why a handshake ends, and the reply that is sent first. -/
structure Refusal where
  reply : Option String
  error : ServerError
deriving DecidableEq, Repr

/-- Without a reply. -/
def Refusal.silent (error : ServerError) : Refusal := ⟨none, error⟩

/-- `send_message(publication, reply)?` before the error is returned. -/
def Refusal.raise (refusal : Refusal) (sent : Except AeronError Unit) : ServerError :=
  match refusal.reply, sent with
  | some _, .error e => .aeronConnectionError e
  | _, _ => refusal.error

structure Hello where
  gatewayId : Nat
  encryptionKey : Int
deriving DecidableEq, Repr

def parseGatewayId (sessionId : Int) (word : List Char) : Except Refusal Nat :=
  let gatewayIdStr := String.ofList word
  let pattern := "gateway-".toList
  if ¬pattern.isPrefixOf word then
    .error ⟨some s!"{sessionId} {gatewayIdStr} REJECT Invalid gateway ID format, expected 'gateway-\x7bid\x7d'",
      .gatewayMessageError "Invalid gateway ID format"⟩
  else
    match parseU8 (word.drop pattern.length) with
    | .ok id =>
        if id < maxGateways then .ok id
        else
          let last := maxGateways - 1
          .error ⟨some s!"{sessionId} gateway-{id} REJECT Gateway ID out of range, expected 0-{last}",
            .gatewayMessageError "Gateway ID out of range"⟩
    | .error _ =>
        .error ⟨some s!"{sessionId} {gatewayIdStr} REJECT Invalid gateway ID, expected numeric ID",
          .gatewayMessageError "Invalid gateway ID"⟩

/-- The words after `HELLO` and the gateway are read one by one; further ones are ignored. -/
def parseHello (sessionId : Int) (message : List Char) : Except Refusal Hello :=
  match splitWhitespace message with
  | [] => .error (.silent (.gatewayMessageError "Empty message"))
  | hello :: parts =>
      if hello ≠ "HELLO".toList then
        .error ⟨some s!"{sessionId} unknown REJECT Malformed HELLO message",
          .gatewayMessageError "Malformed HELLO message"⟩
      else
        match parts with
        | [] => .error (.silent (.gatewayMessageError "Missing gateway ID"))
        | gatewayIdStr :: parts =>
            match parseGatewayId sessionId gatewayIdStr with
            | .error refusal => .error refusal
            | .ok gatewayId =>
                match parts with
                | [] => .error (.silent (.gatewayMessageError "Missing encryption key"))
                | encryptionKeyStr :: _ =>
                    match parseI32 encryptionKeyStr with
                    | .error e =>
                        let reason := e.toString
                        .error (.silent (.gatewayMessageError s!"Invalid encryption key: {reason}"))
                    | .ok encryptionKey => .ok ⟨gatewayId, encryptionKey⟩

theorem parseGatewayId_lt {sessionId : Int} {word : List Char} {gatewayId : Nat}
    (h : parseGatewayId sessionId word = .ok gatewayId) : gatewayId < maxGateways := by
  unfold parseGatewayId at h
  dsimp only at h
  split at h
  · cases h
  · split at h
    · split at h
      · next hlt =>
        cases h
        exact hlt
      · cases h
    · cases h

/-- An understood greeting is one of a gateway that has a slot. -/
theorem parseHello_lt {sessionId : Int} {message : List Char} {hello : Hello}
    (h : parseHello sessionId message = .ok hello) : hello.gatewayId < maxGateways := by
  unfold parseHello at h
  split at h
  · cases h
  · split at h
    · cases h
    · split at h
      · cases h
      · split at h
        · cases h
        · next hid =>
          split at h
          · cases h
          · split at h
            · cases h
            · cases h
              exact parseGatewayId_lt hid

example : parseHello 7 "HELLO gateway-3 -12".toList = .ok ⟨3, -12⟩ := by decide +kernel

example : parseHello 7 "HELLO gateway-16 1".toList =
    .error ⟨some "7 gateway-16 REJECT Gateway ID out of range, expected 0-15",
      .gatewayMessageError "Gateway ID out of range"⟩ := by
  decide +kernel

end VexCore.Networking
