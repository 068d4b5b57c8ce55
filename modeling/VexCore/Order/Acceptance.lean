import VexCore.Order.Codec

/-!
# Which frames the decoder accepts

The decoder checks the enumeration bytes, and nothing else. On a slice that ends before the field
it reads next it panics, and a header that names another block length, template, schema or
version does not stop it.
-/

namespace VexCore.Wire

open Framework

/-- The word of `n` bytes at an index. -/
def wordAt (buf : List UInt8) (index n : Nat) : Nat := fromLeBytes (slice buf index n)

/-- The first 64 bytes are what the encoder writes for some command. -/
def IsFrame (buf : List UInt8) : Prop :=
  ∃ cmd, Representable cmd ∧ encodeOrderCommand cmd (List.replicate 64 0) = .ok (buf.take 64)

/-- The law: no panic, a command exactly for the encoder's frames, and the command of the frame. -/
structure AcceptsExactly (buf : List UInt8) : Prop where
  total : decodeOrderCommand buf ≠ .error .panic
  exact : (∃ cmd, decodeOrderCommand buf = .ok cmd) ↔ IsFrame buf
  inverse : ∀ cmd, decodeOrderCommand buf = .ok cmd →
    encodeOrderCommand cmd (List.replicate 64 0) = .ok (buf.take 64)

def SbeEnum.known {α : Type} : SbeEnum α → Bool
  | .value _ => true
  | .nullVal => false

def commandKnown (buf : List UInt8) : Bool := (decodeCommandType (wordAt buf 8 1)).known
def sideKnown (buf : List UInt8) : Bool := (decodeSide (wordAt buf 53 1)).known
def timeInForceKnown (buf : List UInt8) : Bool := (decodeTimeInForce (wordAt buf 54 1)).known
def statusKnown (buf : List UInt8) : Bool := (decodeStatus (wordAt buf 63 1)).known

/-- Block length, template, schema and version are those of the message. -/
def HeaderMatches (buf : List UInt8) : Prop :=
  wordAt buf 0 2 = sbeBlockLength ∧ wordAt buf 2 2 = sbeTemplateId ∧
    wordAt buf 4 2 = sbeSchemaId ∧ wordAt buf 6 2 = sbeSchemaVersion

instance (buf : List UInt8) : Decidable (HeaderMatches buf) :=
  inferInstanceAs (Decidable (_ ∧ _))

/-- The slice reaches to its first unknown enumeration byte. -/
def Unknown (buf : List UInt8) : Prop :=
  (9 ≤ buf.length ∧ commandKnown buf = false) ∨
    (54 ≤ buf.length ∧ commandKnown buf = true ∧ sideKnown buf = false) ∨
    (55 ≤ buf.length ∧ commandKnown buf = true ∧ sideKnown buf = true ∧
      timeInForceKnown buf = false) ∨
    (64 ≤ buf.length ∧ commandKnown buf = true ∧ sideKnown buf = true ∧
      timeInForceKnown buf = true ∧ statusKnown buf = false)

/-- The slice reaches to the end of the message and every enumeration byte is known. -/
def Whole (buf : List UInt8) : Prop :=
  64 ≤ buf.length ∧ commandKnown buf = true ∧ sideKnown buf = true ∧
    timeInForceKnown buf = true ∧ statusKnown buf = true

/-- An unknown enumeration byte is reached, or the message is whole under a matching header. -/
def Handled (buf : List UInt8) : Prop := Unknown buf ∨ Whole buf ∧ HeaderMatches buf

instance (buf : List UInt8) : Decidable (Unknown buf) := inferInstanceAs (Decidable (_ ∨ _))
instance (buf : List UInt8) : Decidable (Whole buf) := inferInstanceAs (Decidable (_ ∧ _))
instance (buf : List UInt8) : Decidable (Handled buf) := inferInstanceAs (Decidable (_ ∨ _))

section Reads

variable {buf : List UInt8} {index n : Nat}

theorem getWordAt_of_fits (h : index + n ≤ buf.length) :
    (getBytesAt buf index n).map fromLeBytes = .ok (wordAt buf index n) := by
  rw [getBytesAt_of_fits h]
  rfl

theorem getWordAt_of_not (h : ¬index + n ≤ buf.length) :
    (getBytesAt buf index n).map fromLeBytes = .error .panic := by
  rw [getBytesAt, if_neg h]
  rfl

theorem bind_panic {α : Type} {f : Nat → Except Fault α} (h : ∀ v, f v = .error .panic) :
    (getBytesAt buf index n).map fromLeBytes >>= f = .error .panic := by
  by_cases hfits : index + n ≤ buf.length
  · rw [getWordAt_of_fits hfits]
    exact h _
  · rw [getWordAt_of_not hfits]
    rfl

theorem bind_of_fits {α : Type} (f : Nat → Except Fault α) (h : index + n ≤ buf.length) :
    (getBytesAt buf index n).map fromLeBytes >>= f = f (wordAt buf index n) := by
  rw [getWordAt_of_fits h]
  rfl

theorem bind_of_not {α : Type} (f : Nat → Except Fault α) (h : ¬index + n ≤ buf.length) :
    (getBytesAt buf index n).map fromLeBytes >>= f = .error .panic := by
  rw [getWordAt_of_not h]
  rfl

end Reads

theorem bind_value {α β : Type} (message : String) (a : α) (f : α → Except Fault β) :
    (SbeEnum.value a).tryInto message >>= f = f a := rfl

theorem bind_unknown {α β : Type} (message : String) {e : SbeEnum α} (h : e.known = false)
    (f : α → Except Fault β) : e.tryInto message >>= f = .error (.serde message) := by
  cases e with
  | value a => cases h
  | nullVal => rfl

theorem decodeHeader_short {buf : List UInt8} (h : buf.length < 8) :
    decodeHeader buf 0 = .error .panic := by
  unfold decodeHeader getU16At
  apply bind_panic
  intro _
  exact bind_of_not _ (by omega)

theorem decodeHeader_of_fits {buf : List UInt8} (h : 8 ≤ buf.length) :
    decodeHeader buf 0 = .ok () := by
  unfold decodeHeader getU16At
  rw [bind_of_fits _ (by omega), bind_of_fits _ (by omega)]
  rfl

theorem SbeEnum.exists_of_known {α : Type} {e : SbeEnum α} (h : e.known = true) :
    ∃ a, e = .value a := by
  cases e with
  | value a => exact ⟨a, rfl⟩
  | nullVal => cases h

/-- The fields up to the side, as the slice has them. -/
def headFields (buf : List UInt8) (command : OrderCommandType) : OrderCommand :=
  { command
    clientOrderId := wordAt buf 9 8
    orderId := wordAt buf 17 8
    userId := wordAt buf 25 8
    marketId := wordAt buf 33 4
    price := wordAt buf 37 8
    size := wordAt buf 45 8
    side := .ask
    timeInForce := .gtc
    timestamp := 0
    status := .rejected }

/-- The reads that follow the side. -/
def decodeRest (buf : List UInt8) (command : OrderCommandType) (side : Side) :
    Except Fault OrderCommand := do
  let timeInForce ←
    (decodeTimeInForce (← getU8At buf 54)).tryInto "Unknown TimeInForce variant"
  let timestamp ← getU64At buf 55
  let status ← (decodeStatus (← getU8At buf 63)).tryInto "Invalid status: NullVal"
  return { headFields buf command with side, timeInForce, timestamp, status }

section Rest

variable {buf : List UInt8} {command : OrderCommandType} {side : Side}

theorem decodeRest_short (hlength : buf.length = 54) :
    decodeRest buf command side = .error .panic := bind_of_not _ (by omega)

theorem decodeRest_timeInForce_unknown (hlength : 55 ≤ buf.length)
    (h : timeInForceKnown buf = false) :
    decodeRest buf command side = .error (.serde "Unknown TimeInForce variant") := by
  refine (bind_of_fits _ (by omega)).trans ?_
  exact bind_unknown _ h _

variable {timeInForce : TimeInForce}
variable (htif : decodeTimeInForce (wordAt buf 54 1) = .value timeInForce)

include htif

theorem decodeRest_before_status (hlength : 55 ≤ buf.length) (hshort : buf.length < 64) :
    decodeRest buf command side = .error .panic := by
  refine (bind_of_fits _ (by omega)).trans ?_
  rw [htif, bind_value]
  apply bind_panic
  intro _
  exact bind_of_not _ (by omega)

theorem decodeRest_through_status (hlength : 64 ≤ buf.length) :
    decodeRest buf command side =
      (decodeStatus (wordAt buf 63 1)).tryInto "Invalid status: NullVal" >>= fun status =>
        .ok { headFields buf command with
                side, timeInForce, timestamp := wordAt buf 55 8, status } := by
  refine (bind_of_fits _ (by omega)).trans ?_
  rw [htif, bind_value]
  exact (bind_of_fits _ (by omega)).trans (bind_of_fits _ (by omega))

end Rest

section Stages

variable {buf : List UInt8}

theorem decode_of_header {fault : Fault} (h : decodeHeader buf 0 = .error fault) :
    decodeOrderCommand buf = .error fault := by
  rw [decodeOrderCommand, h]
  rfl

theorem decode_before_command (hlength : buf.length = 8) :
    decodeOrderCommand buf = .error .panic := by
  rw [decodeOrderCommand, decodeHeader_of_fits (by omega)]
  exact bind_of_not _ (by simp only [encodedLength]; omega)

theorem decode_command_unknown (hlength : 9 ≤ buf.length) (h : commandKnown buf = false) :
    decodeOrderCommand buf = .error (.serde "NullVal") := by
  rw [decodeOrderCommand, decodeHeader_of_fits (by omega)]
  refine (bind_of_fits _ (by simp only [encodedLength]; omega)).trans ?_
  exact bind_unknown _ h _

theorem decode_before_side (hlength : 9 ≤ buf.length) (hshort : buf.length < 54)
    (h : commandKnown buf = true) : decodeOrderCommand buf = .error .panic := by
  obtain ⟨command, hcommand⟩ := SbeEnum.exists_of_known h
  rw [decodeOrderCommand, decodeHeader_of_fits (by omega)]
  refine (bind_of_fits _ (by simp only [encodedLength]; omega)).trans ?_
  change (decodeCommandType (wordAt buf 8 1)).tryInto _ >>= _ = _
  rw [hcommand, bind_value]
  iterate 6
    apply bind_panic
    intro _
  exact bind_of_not _ (by simp only [encodedLength]; omega)

theorem decode_through_side (hlength : 54 ≤ buf.length) {command : OrderCommandType}
    (h : decodeCommandType (wordAt buf 8 1) = .value command) :
    decodeOrderCommand buf =
      (decodeSide (wordAt buf 53 1)).tryInto "NullVal" >>= decodeRest buf command := by
  rw [decodeOrderCommand, decodeHeader_of_fits (by omega)]
  refine (bind_of_fits _ (by simp only [encodedLength]; omega)).trans ?_
  change (decodeCommandType (wordAt buf 8 1)).tryInto _ >>= _ = _
  rw [h, bind_value]
  iterate 6 refine (bind_of_fits _ (by simp only [encodedLength]; omega)).trans ?_
  exact bind_of_fits _ (by simp only [encodedLength]; omega)

end Stages

theorem decode_whole {buf : List UInt8} (h : Whole buf) :
    ∃ command side timeInForce status,
      decodeCommandType (wordAt buf 8 1) = .value command ∧
      decodeSide (wordAt buf 53 1) = .value side ∧
      decodeTimeInForce (wordAt buf 54 1) = .value timeInForce ∧
      decodeStatus (wordAt buf 63 1) = .value status ∧
      decodeOrderCommand buf =
        .ok { headFields buf command with
                side, timeInForce, timestamp := wordAt buf 55 8, status } := by
  obtain ⟨hlength, hcommand, hside, htif, hstatus⟩ := h
  obtain ⟨command, hcommand⟩ := SbeEnum.exists_of_known hcommand
  obtain ⟨side, hside⟩ := SbeEnum.exists_of_known hside
  obtain ⟨timeInForce, htif⟩ := SbeEnum.exists_of_known htif
  obtain ⟨status, hstatus⟩ := SbeEnum.exists_of_known hstatus
  rw [decode_through_side (by omega) hcommand, hside, bind_value,
    decodeRest_through_status htif hlength, hstatus, bind_value]
  exact ⟨command, side, timeInForce, status, hcommand, rfl, htif, rfl, rfl⟩

theorem decode_unknown {buf : List UInt8} (h : Unknown buf) :
    ∃ message, decodeOrderCommand buf = .error (.serde message) := by
  obtain ⟨hlength, hcommand⟩ | ⟨hlength, hcommand, hside⟩ | ⟨hlength, hcommand, hside, htif⟩ |
    ⟨hlength, hcommand, hside, htif, hstatus⟩ := h
  · exact ⟨_, decode_command_unknown hlength hcommand⟩
  · obtain ⟨command, hcommand⟩ := SbeEnum.exists_of_known hcommand
    exact ⟨_, (decode_through_side hlength hcommand).trans (bind_unknown _ hside _)⟩
  · obtain ⟨command, hcommand⟩ := SbeEnum.exists_of_known hcommand
    obtain ⟨side, hside⟩ := SbeEnum.exists_of_known hside
    rw [decode_through_side (by omega) hcommand, hside, bind_value]
    exact ⟨_, decodeRest_timeInForce_unknown hlength htif⟩
  · obtain ⟨command, hcommand⟩ := SbeEnum.exists_of_known hcommand
    obtain ⟨side, hside⟩ := SbeEnum.exists_of_known hside
    obtain ⟨timeInForce, htif⟩ := SbeEnum.exists_of_known htif
    rw [decode_through_side (by omega) hcommand, hside, bind_value,
      decodeRest_through_status htif hlength]
    exact ⟨_, bind_unknown _ hstatus _⟩

theorem decode_otherwise {buf : List UInt8} (hunknown : ¬Unknown buf) (hwhole : ¬Whole buf) :
    decodeOrderCommand buf = .error .panic := by
  by_cases hheader : buf.length < 8
  · exact decode_of_header (decodeHeader_short hheader)
  simp only [Unknown, Whole, not_or, not_and, Bool.not_eq_false, Bool.not_eq_true]
    at hunknown hwhole
  obtain ⟨hcommand, hside, htif, hstatus⟩ := hunknown
  by_cases hfirst : buf.length = 8
  · exact decode_before_command hfirst
  have hknown := hcommand (by omega)
  obtain ⟨command, hvalue⟩ := SbeEnum.exists_of_known hknown
  by_cases hbefore : buf.length < 54
  · exact decode_before_side (by omega) hbefore hknown
  have hsideKnown := hside (by omega) hknown
  obtain ⟨side, hsideValue⟩ := SbeEnum.exists_of_known hsideKnown
  rw [decode_through_side (by omega) hvalue, hsideValue, bind_value]
  by_cases hlast : buf.length = 54
  · exact decodeRest_short hlast
  have htifKnown := htif (by omega) hknown hsideKnown
  obtain ⟨timeInForce, htifValue⟩ := SbeEnum.exists_of_known htifKnown
  by_cases hend : buf.length < 64
  · exact decodeRest_before_status htifValue (by omega) hend
  have hstatusKnown := hstatus (by omega) hknown hsideKnown htifKnown
  have hmissing := hwhole (by omega) hknown hsideKnown htifKnown
  rw [hstatusKnown] at hmissing
  cases hmissing

theorem encodeCommandType_of_decode {n : Nat} {c : OrderCommandType}
    (h : decodeCommandType n = .value c) : encodeCommandType c = n := by
  unfold decodeCommandType at h
  split at h <;> cases h <;> rfl

theorem encodeSide_of_decode {n : Nat} {side : Side} (h : decodeSide n = .value side) :
    encodeSide side = n := by
  unfold decodeSide at h
  split at h <;> cases h <;> rfl

theorem encodeTimeInForce_of_decode {n : Nat} {t : TimeInForce}
    (h : decodeTimeInForce n = .value t) : encodeTimeInForce t = n := by
  unfold decodeTimeInForce at h
  split at h <;> cases h <;> rfl

theorem encodeStatus_of_decode {n : Nat} {status : Status} (h : decodeStatus n = .value status) :
    encodeStatus status = n := by
  unfold decodeStatus at h
  split at h <;> cases h <;> rfl

theorem slice_take {data : List UInt8} {index n m : Nat} (h : index + n ≤ m) :
    slice (data.take m) index n = slice data index n := by
  rw [slice, slice, List.drop_take, List.take_take, Nat.min_eq_left (by omega)]

theorem length_slice {data : List UInt8} {index n : Nat} (h : index + n ≤ data.length) :
    (slice data index n).length = n := by
  rw [slice, List.length_take, List.length_drop]
  omega

theorem toLeBytes_wordAt {buf : List UInt8} {index n : Nat} (h : index + n ≤ buf.length) :
    toLeBytes n (wordAt buf index n) = slice buf index n := by
  have hback := toLeBytes_fromLeBytes (slice buf index n)
  rwa [length_slice h] at hback

theorem wordAt_lt {buf : List UInt8} {index n : Nat} (h : index + n ≤ buf.length) :
    wordAt buf index n < 256 ^ n := by
  have hlt := fromLeBytes_lt (slice buf index n)
  rwa [length_slice h] at hlt

theorem writes_tile (cmd : OrderCommand) {i : Nat} (hi : i < 64) :
    ∃ w ∈ writes cmd, w.index ≤ i ∧ i < w.stop := by
  have hextents : ∀ i < 64, ∃ e ∈ [(0, 2), (2, 4), (4, 6), (6, 8), (8, 9), (9, 17), (17, 25),
      (33, 37), (25, 33), (37, 45), (45, 53), (53, 54), (54, 55), (55, 63), (63, 64)],
      e.1 ≤ i ∧ i < e.2 := by decide
  obtain ⟨e, he, hle, hlt⟩ := hextents i hi
  have hwrites : (writes cmd).map (fun w => (w.index, w.stop)) =
      [(0, 2), (2, 4), (4, 6), (6, 8), (8, 9), (9, 17), (17, 25), (33, 37), (25, 33), (37, 45),
        (45, 53), (53, 54), (54, 55), (55, 63), (63, 64)] := by
    simp [writes, Write.stop]
  rw [← hwrites] at he
  obtain ⟨w, hw, rfl⟩ := List.mem_map.mp he
  exact ⟨w, hw, hle, hlt⟩

theorem encode_eq_take_iff (cmd : OrderCommand) (buf : List UInt8) :
    encodeOrderCommand cmd (List.replicate 64 0) = .ok (buf.take 64) ↔
      64 ≤ buf.length ∧ ∀ w ∈ writes cmd, slice buf w.index w.bytes.length = w.bytes := by
  have fits : ∀ w ∈ writes cmd, w.stop ≤ (List.replicate 64 (0 : UInt8)).length := by
    simpa only [List.length_replicate] using writes_stop cmd
  rw [encodeOrderCommand_eq, foldlM_putBytesAt fits, Except.ok.injEq]
  constructor
  · intro h
    have hlength := congrArg List.length h
    rw [length_overwriteAll fits, List.length_replicate, List.length_take] at hlength
    refine ⟨by omega, ?_⟩
    intro w hw
    have hslice := slice_overwriteAll fits (writes_disjoint cmd) hw
    rwa [h, slice_take (writes_stop cmd w hw)] at hslice
  · intro ⟨hlength, hslices⟩
    apply overwriteAll_eq fits (writes_disjoint cmd)
    · rw [List.length_take, List.length_replicate]
      omega
    · intro i hi
      rw [List.length_replicate] at hi
      exact writes_tile cmd hi
    · intro w hw
      rw [slice_take (writes_stop cmd w hw)]
      exact hslices w hw

/-- A frame is a whole message under a matching header. -/
theorem IsFrame.whole {buf : List UInt8} (h : IsFrame buf) : Whole buf ∧ HeaderMatches buf := by
  obtain ⟨cmd, hcmd, henc⟩ := h
  obtain ⟨hlength, hslices⟩ := (encode_eq_take_iff cmd buf).mp henc
  have hword : ∀ {index n v : Nat}, v < 256 ^ n → ⟨index, toLeBytes n v⟩ ∈ writes cmd →
      wordAt buf index n = v := by
    intro index n v hv hw
    have hslice := hslices _ hw
    simp only [length_toLeBytes] at hslice
    rw [wordAt, hslice, fromLeBytes_toLeBytes, Nat.mod_eq_of_lt hv]
  have hcommand : wordAt buf 8 1 = encodeCommandType cmd.command :=
    hword (encodeCommandType_lt _) (by simp [writes])
  have hside : wordAt buf 53 1 = encodeSide cmd.side :=
    hword (encodeSide_lt _) (by simp [writes])
  have htif : wordAt buf 54 1 = encodeTimeInForce cmd.timeInForce :=
    hword (encodeTimeInForce_lt _) (by simp [writes])
  have hstatus : wordAt buf 63 1 = encodeStatus cmd.status :=
    hword (encodeStatus_lt _) (by simp [writes])
  refine ⟨⟨hlength, ?_, ?_, ?_, ?_⟩, hword (by decide) (by simp [writes]),
    hword (by decide) (by simp [writes]), hword (by decide) (by simp [writes]),
    hword (by decide) (by simp [writes])⟩
  · rw [commandKnown, hcommand, decodeCommandType_encode]
    rfl
  · rw [sideKnown, hside, decodeSide_encode]
    rfl
  · rw [timeInForceKnown, htif, decodeTimeInForce_encode]
    rfl
  · rw [statusKnown, hstatus, decodeStatus_encode]
    rfl

theorem decode_inverse {buf : List UInt8} (hwhole : Whole buf) (hheader : HeaderMatches buf) :
    ∃ cmd, decodeOrderCommand buf = .ok cmd ∧ Representable cmd ∧
      encodeOrderCommand cmd (List.replicate 64 0) = .ok (buf.take 64) := by
  obtain ⟨command, side, timeInForce, status, hcommand, hside, htif, hstatus, hcmd⟩ :=
    decode_whole hwhole
  obtain ⟨hlength, -⟩ := hwhole
  obtain ⟨hblock, htemplate, hschema, hversion⟩ := hheader
  refine ⟨_, hcmd, ⟨wordAt_lt (by omega), wordAt_lt (by omega), wordAt_lt (by omega),
    wordAt_lt (by omega), wordAt_lt (by omega), wordAt_lt (by omega), wordAt_lt (by omega)⟩,
    (encode_eq_take_iff _ buf).mpr ⟨hlength, ?_⟩⟩
  simp only [writes, headFields, encodeCommandType_of_decode hcommand,
    encodeSide_of_decode hside, encodeTimeInForce_of_decode htif,
    encodeStatus_of_decode hstatus, ← htemplate, ← hblock, ← hschema, ← hversion,
    List.forall_mem_cons, length_toLeBytes]
  refine ⟨?_, ?_, ?_, ?_, ?_, ?_, ?_, ?_, ?_, ?_, ?_, ?_, ?_, ?_, ?_, List.forall_mem_nil _⟩
  all_goals exact (toLeBytes_wordAt (by omega)).symm

/-- The slices on which the decoder keeps its law. -/
theorem accepts_exactly_iff (buf : List UInt8) : AcceptsExactly buf ↔ Handled buf := by
  by_cases hwhole : Whole buf
  · constructor
    · intro h
      obtain ⟨_, _, _, _, _, _, _, _, hcmd⟩ := decode_whole hwhole
      exact .inr (h.exact.mp ⟨_, hcmd⟩).whole
    · rintro (hunknown | ⟨-, hheader⟩)
      · obtain ⟨message, hmessage⟩ := decode_unknown hunknown
        obtain ⟨_, _, _, _, _, _, _, _, hcmd⟩ := decode_whole hwhole
        rw [hcmd] at hmessage
        cases hmessage
      · obtain ⟨cmd, hcmd, hrepresentable, hframe⟩ := decode_inverse hwhole hheader
        refine ⟨?_, iff_of_true ⟨cmd, hcmd⟩ ⟨cmd, hrepresentable, hframe⟩, ?_⟩
        · rw [hcmd]
          nofun
        · intro read hread
          rw [hcmd] at hread
          cases hread
          exact hframe
  · have hforeign : ¬IsFrame buf := fun h => hwhole h.whole.1
    by_cases hunknown : Unknown buf
    · obtain ⟨message, hmessage⟩ := decode_unknown hunknown
      have hnone : ∀ cmd, decodeOrderCommand buf ≠ .ok cmd := by
        intro cmd hcmd
        rw [hmessage] at hcmd
        cases hcmd
      refine iff_of_true ⟨?_, iff_of_false ?_ hforeign, ?_⟩ (.inl hunknown)
      · rw [hmessage]
        nofun
      · exact fun ⟨cmd, hcmd⟩ => hnone cmd hcmd
      · exact fun cmd hcmd => absurd hcmd (hnone cmd)
    · refine iff_of_false ?_ ?_
      · exact fun h => h.total (decode_otherwise hunknown hwhole)
      · exact fun h => h.elim hunknown fun hframe => hwhole hframe.1

/-- An empty slice panics; a frame of a foreign template, schema and version is taken. -/
theorem empty_slice_panics : ¬AcceptsExactly [] ∧
    ¬AcceptsExactly ([0, 0, 9, 0, 9, 0, 9, 0] ++ List.replicate 56 0) := by
  constructor
  · exact fun h => h.total rfl
  · intro h
    have hwhole : Whole ([0, 0, 9, 0, 9, 0, 9, 0] ++ List.replicate 56 0) := by decide
    obtain ⟨_, _, _, _, _, _, _, _, hcmd⟩ := decode_whole hwhole
    exact absurd (h.exact.mp ⟨_, hcmd⟩).whole.2 (by decide)

end VexCore.Wire
