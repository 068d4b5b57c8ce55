import VexCore.Networking.GatewayManager
import Mathlib.Data.List.DropRight

/-!
# What a gateway reads of the core's answers

The core broadcasts its answers, and a gateway looks for those to its own session and id. The
texts of both sides are words and decimal numbers; here they are read back as they were written,
and by nobody else.
-/

namespace VexCore.Networking

inductive CoreResponse
  | accept (dedicatedPort dedicatedControlPort : Nat) (encryptedSession : Int) (gatewayId : Nat)
  | reject (reason : String)
  | unavailable (retryAfterSeconds : Nat)
  | ignore
deriving DecidableEq, Repr

/-- `trim_matches`. -/
def trimMatches (p : Char → Bool) (text : List Char) : List Char := (text.dropWhile p).rdropWhile p

/-- `parse::<u16>` and `parse::<u32>`. -/
def parseUnsigned (bound : Nat) : List Char → Except ParseIntError Nat
  | [] => .error .empty
  | '+' :: digits => parseMagnitude bound .posOverflow digits
  | digits => parseMagnitude bound .posOverflow digits

def parseU16 : List Char → Except ParseIntError Nat := parseUnsigned (2 ^ 16 - 1)
def parseU32 : List Char → Except ParseIntError Nat := parseUnsigned (2 ^ 32 - 1)

/-- `join(" ")`. -/
def joinWords : List (List Char) → List Char
  | [] => []
  | [word] => word
  | word :: rest => word ++ ' ' :: joinWords rest

/-- The command of an answer and the words behind it. -/
def parseCommand (gatewayId : Nat) (command : List Char) (arguments : List (List Char)) :
    CoreResponse :=
  if command = "ACCEPT".toList ∧ arguments.length = 3 then
    match parseU16 (arguments.getD 0 []), parseU16 (arguments.getD 1 []),
      parseI32 (arguments.getD 2 []) with
    | .ok port, .ok controlPort, .ok encryptedSession =>
        .accept port controlPort encryptedSession gatewayId
    | _, _, _ => .ignore
  else if command = "REJECT".toList ∧ 1 ≤ arguments.length then
    .reject (String.ofList (joinWords arguments))
  else if command = "UNAVAILABLE".toList ∧ arguments.length = 1 then
    match parseU32 (arguments.getD 0 []) with
    | .ok retryAfter => .unavailable retryAfter
    | .error _ => .ignore
  else .ignore

def parseCoreResponse (message : List Char) (expectedSession : Int) (expectedGatewayId : Nat) :
    CoreResponse :=
  let cleanMessage := trimMatches isWhitespace (trimMatches (· = '\x00') message)
  match splitWhitespace cleanMessage with
  | sessionWord :: gatewayWord :: command :: arguments =>
      match parseI32 sessionWord with
      | .error _ => .ignore
      | .ok sessionId =>
          if sessionId ≠ expectedSession then .ignore
          else
            let pattern := "gateway-".toList
            if ¬pattern.isPrefixOf gatewayWord then .ignore
            else
              match parseU8 (gatewayWord.drop pattern.length) with
              | .error _ => .ignore
              | .ok gatewayId =>
                  if gatewayId ≠ expectedGatewayId then .ignore
                  else parseCommand gatewayId command arguments
  | _ => .ignore

/-- The greeting of a gateway. -/
def helloMessage (gatewayId : Nat) (encryptionKey : Int) : String :=
  s!"HELLO gateway-{gatewayId} {encryptionKey}"

/-- How `perform_handshake` ends on an answer. -/
def establish (encryptionKey : Int) : CoreResponse → Except String (Nat × Nat × Int)
  | .accept dedicatedPort dedicatedControlPort encryptedSession _ =>
      .ok (dedicatedPort, dedicatedControlPort, xorI32 encryptedSession encryptionKey)
  | .reject reason => .error s!"Connection rejected: {reason}"
  | .unavailable retryAfterSeconds =>
      .error s!"Core unavailable, retry after {retryAfterSeconds} seconds"
  | .ignore => .error "Unexpected core response"

/-- Why the core refuses a gateway that it can name. -/
inductive RejectReason
  | outOfRange
  | invalidId
  | alreadyConnected
  | authenticationFailed
deriving DecidableEq, Repr

def RejectReason.text : RejectReason → String
  | .outOfRange =>
      let last := maxGateways - 1
      s!"Gateway ID out of range, expected 0-{last}"
  | .invalidId =>
      let last := maxGateways - 1
      s!"Invalid gateway ID (must be 0-{last})"
  | .alreadyConnected => "Gateway already connected"
  | .authenticationFailed => "Authentication failed"

def rejectMessage (sessionId : Int) (gatewayId : Nat) (reason : RejectReason) : String :=
  let text := reason.text
  s!"{sessionId} gateway-{gatewayId} REJECT {text}"

/-- Not empty, and nowhere split. -/
structure IsWord (word : List Char) : Prop where
  ne : word ≠ []
  solid : ∀ c ∈ word, isWhitespace c = false

instance (word : List Char) : Decidable (IsWord word) :=
  decidable_of_iff (word.isEmpty = false ∧ word.any isWhitespace = false)
    ⟨fun h => ⟨by simpa using h.1, by simpa using h.2⟩,
      fun h => ⟨by simpa using h.ne, by simpa using h.solid⟩⟩

section Words

variable {word rest : List Char} {words : List (List Char)}

theorem joinWords_cons (word : List Char) (h : words ≠ []) :
    joinWords (word :: words) = word ++ ' ' :: joinWords words := by
  cases words with
  | nil => exact absurd rfl h
  | cons next words => rfl

theorem splitWhitespaceFrom_append {letters : List Char}
    (h : ∀ c ∈ letters, isWhitespace c = false) :
    splitWhitespaceFrom word (letters ++ rest) = splitWhitespaceFrom (word ++ letters) rest := by
  induction letters generalizing word with
  | nil => simp
  | cons c letters ih =>
    have hc := h c List.mem_cons_self
    rw [List.cons_append, splitWhitespaceFrom, if_neg (by simp [hc]),
      ih fun d hd => h d (List.mem_cons_of_mem c hd)]
    simp

theorem splitWhitespace_word (h : IsWord word) : splitWhitespace word = [word] := by
  have hsplit : splitWhitespaceFrom [] (word ++ []) = splitWhitespaceFrom ([] ++ word) [] :=
    splitWhitespaceFrom_append h.solid
  simpa [splitWhitespace, splitWhitespaceFrom, h.ne] using hsplit

theorem splitWhitespace_cons (h : IsWord word) :
    splitWhitespace (word ++ ' ' :: rest) = word :: splitWhitespace rest := by
  have hspace : isWhitespace ' ' = true := by decide
  rw [splitWhitespace, splitWhitespaceFrom_append h.solid,
    List.nil_append, splitWhitespaceFrom, if_pos hspace, if_neg h.ne]
  rfl

theorem splitWhitespace_joinWords (h : ∀ word ∈ words, IsWord word) :
    splitWhitespace (joinWords words) = words := by
  induction words with
  | nil => rfl
  | cons word words ih =>
    have hword := h word List.mem_cons_self
    by_cases hlast : words = []
    · subst hlast
      exact splitWhitespace_word hword
    · rw [joinWords_cons word hlast, splitWhitespace_cons hword,
        ih fun w hw => h w (List.mem_cons_of_mem word hw)]

theorem trimMatches_eq_self {p : Char → Bool} {text first middle last : List Char}
    (hstart : text = first ++ middle) (hend : ∃ front, text = front ++ last)
    (hfirst : IsWord first) (hlast : IsWord last) (hp : ∀ c ∈ first ++ last, p c = false) :
    trimMatches p text = text := by
  obtain ⟨front, hend⟩ := hend
  have hleft : text.dropWhile p = text := by
    obtain ⟨c, letters, hc⟩ := List.exists_cons_of_ne_nil hfirst.ne
    have hpc : p c = false := hp c (by simp [hc])
    rw [hstart, hc, List.cons_append, List.dropWhile_cons, hpc]
    rfl
  rw [trimMatches, hleft, List.rdropWhile_eq_self_iff]
  intro hne
  subst hend
  rw [List.getLast_append_of_ne_nil hne hlast.ne,
    hp _ (List.mem_append_right first (List.getLast_mem hlast.ne))]
  exact Bool.false_ne_true

theorem joinWords_ends {last : List Char} (h : words.getLast? = some last) :
    ∃ front, joinWords words = front ++ last := by
  induction words with
  | nil => cases h
  | cons word words ih =>
    by_cases hlast : words = []
    · subst hlast
      cases h
      exact ⟨[], rfl⟩
    · rw [List.getLast?_cons, List.getLast?_eq_some_getLast hlast, Option.getD_some] at h
      obtain ⟨front, hfront⟩ := ih ((List.getLast?_eq_some_getLast hlast).trans h)
      refine ⟨word ++ ' ' :: front, ?_⟩
      rw [joinWords_cons word hlast, hfront]
      simp

theorem trimMatches_joinWords {p : Char → Bool} {last : List Char}
    (hlast : (word :: words).getLast? = some last) (h : ∀ w ∈ word :: words, IsWord w)
    (hp : ∀ c ∈ word ++ last, p c = false) :
    trimMatches p (joinWords (word :: words)) = joinWords (word :: words) := by
  have hmem : last ∈ word :: words := List.mem_of_getLast? hlast
  obtain ⟨middle, hstart⟩ : ∃ middle, joinWords (word :: words) = word ++ middle := by
    cases words with
    | nil => exact ⟨[], by simp [joinWords]⟩
    | cons next words => exact ⟨' ' :: joinWords (next :: words), rfl⟩
  exact trimMatches_eq_self hstart (joinWords_ends hlast) (h word List.mem_cons_self)
    (h last hmem) hp

theorem cleanMessage_joinWords {last : List Char} (hlast : (word :: words).getLast? = some last)
    (h : ∀ w ∈ word :: words, IsWord w) (hword : '\x00' ∉ word) (hnull : '\x00' ∉ last) :
    splitWhitespace (trimMatches isWhitespace
      (trimMatches (· = '\x00') (joinWords (word :: words)))) = word :: words := by
  rw [trimMatches_joinWords hlast h ?_, trimMatches_joinWords hlast h ?_,
    splitWhitespace_joinWords h]
  · intro c hc
    rcases List.mem_append.mp hc with hc | hc
    · exact (h word List.mem_cons_self).solid c hc
    · exact (h last (List.mem_of_getLast? hlast)).solid c hc
  · intro c hc
    rcases List.mem_append.mp hc with hc | hc
    · exact decide_eq_false fun hzero => hword (hzero ▸ hc)
    · exact decide_eq_false fun hzero => hnull (hzero ▸ hc)

theorem isWord_of_mem_splitWhitespaceFrom {text : List Char}
    (hword : ∀ c ∈ word, isWhitespace c = false) {w : List Char}
    (hw : w ∈ splitWhitespaceFrom word text) : IsWord w := by
  induction text generalizing word with
  | nil =>
    rw [splitWhitespaceFrom] at hw
    split_ifs at hw with hempty
    · cases hw
    · rw [List.mem_singleton.mp hw]
      exact ⟨hempty, hword⟩
  | cons c text ih =>
    rw [splitWhitespaceFrom] at hw
    split_ifs at hw with hspace hempty
    · exact ih (List.forall_mem_nil _) hw
    · rcases List.mem_cons.mp hw with rfl | hw
      · exact ⟨hempty, hword⟩
      · exact ih (List.forall_mem_nil _) hw
    · refine ih ?_ hw
      intro d hd
      rcases List.mem_append.mp hd with hd | hd
      · exact hword d hd
      · rw [List.mem_singleton.mp hd]
        exact Bool.eq_false_iff.mpr hspace

end Words

section Decimals

theorem visible_of_isDigit {c : Char} (h : c.isDigit = true) :
    isWhitespace c = false ∧ c ≠ '\x00' ∧ c ≠ '+' ∧ c ≠ '-' := by
  have hrange : 48 ≤ c.toNat ∧ c.toNat ≤ 57 := by
    simp only [Char.isDigit, Bool.and_eq_true, decide_eq_true_eq] at h
    exact ⟨h.1, h.2⟩
  refine ⟨?_, ?_, ?_, ?_⟩
  · simp only [isWhitespace]
    grind
  · rintro rfl
    revert hrange
    decide
  · rintro rfl
    revert hrange
    decide
  · rintro rfl
    revert hrange
    decide

theorem isDigit_of_mem {c : Char} {n : Nat} (h : c ∈ Nat.toDigits 10 n) : c.isDigit = true :=
  Nat.isDigit_of_mem_toDigits (by decide) (by decide) h

theorem isWord_toDigits (n : Nat) : IsWord (Nat.toDigits 10 n) where
  ne := Nat.toDigits_ne_nil
  solid _ hc := (visible_of_isDigit (isDigit_of_mem hc)).1

theorem null_notMem_toDigits (n : Nat) : '\x00' ∉ Nat.toDigits 10 n :=
  fun h => (visible_of_isDigit (isDigit_of_mem h)).2.1 rfl

/-- Digits are read as the number they stand for. -/
theorem parseDigits_eq {bound result : Nat} {overflow : ParseIntError} {digits : List Char}
    (hdigits : ∀ c ∈ digits, c.isDigit = true)
    (hbound : Nat.ofDigitChars 10 digits result ≤ bound) :
    parseDigits bound overflow result digits = .ok (Nat.ofDigitChars 10 digits result) := by
  induction digits generalizing result with
  | nil => rfl
  | cons c digits ih =>
    have hc := hdigits c List.mem_cons_self
    have hnext : result * 10 + (c.toNat - '0'.toNat) = 10 * result + (c.toNat - '0'.toNat) := by
      omega
    rw [Nat.ofDigitChars_cons] at hbound ⊢
    have hle : 10 * result + (c.toNat - '0'.toNat) ≤ bound := by
      rw [Nat.ofDigitChars_eq_ofDigitChars_zero] at hbound
      have hpow : 1 ≤ 10 ^ digits.length := Nat.one_le_pow _ _ (by decide)
      have hmul := Nat.mul_le_mul_right (10 * result + (c.toNat - '0'.toNat)) hpow
      omega
    rw [parseDigits, if_pos hc]
    dsimp only
    rw [hnext, if_pos hle]
    exact ih (fun d hd => hdigits d (List.mem_cons_of_mem c hd)) hbound

theorem parseMagnitude_toDigits {bound n : Nat} {overflow : ParseIntError} (h : n ≤ bound) :
    parseMagnitude bound overflow (Nat.toDigits 10 n) = .ok n := by
  have hvalue : Nat.ofDigitChars 10 (Nat.toDigits 10 n) 0 = n := Nat.ofDigitChars_ten_toDigits
  rw [parseMagnitude, if_neg Nat.toDigits_ne_nil,
    parseDigits_eq (fun _ hc => isDigit_of_mem hc) (hvalue.trans_le h), hvalue]

/-- A number starts with a digit, so without a sign. -/
theorem toDigits_eq_cons (n : Nat) :
    ∃ c digits, Nat.toDigits 10 n = c :: digits ∧ c ≠ '+' ∧ c ≠ '-' := by
  obtain ⟨c, digits, h⟩ := List.exists_cons_of_ne_nil (Nat.toDigits_ne_nil (n := n) (b := 10))
  have hdigit : c.isDigit = true := isDigit_of_mem (h ▸ List.mem_cons_self)
  exact ⟨c, digits, h, (visible_of_isDigit hdigit).2.2⟩

theorem parseUnsigned_toDigits {bound n : Nat} (h : n ≤ bound) :
    parseUnsigned bound (Nat.toDigits 10 n) = .ok n := by
  obtain ⟨c, digits, hdigits, hplus, -⟩ := toDigits_eq_cons n
  rw [hdigits]
  unfold parseUnsigned
  split
  · next hnil => cases hnil
  · next hsign => exact absurd (List.cons.inj hsign).1 hplus
  · rw [← hdigits]
    exact parseMagnitude_toDigits h

theorem parseU8_toDigits {n : Nat} (h : n < 2 ^ 8) : parseU8 (Nat.toDigits 10 n) = .ok n := by
  obtain ⟨c, digits, hdigits, hplus, -⟩ := toDigits_eq_cons n
  rw [hdigits]
  unfold parseU8
  split
  · next hnil => cases hnil
  · next hsign => exact absurd (List.cons.inj hsign).1 hplus
  · rw [← hdigits]
    exact parseMagnitude_toDigits (Nat.le_of_lt_succ h)

/-- The letters of a printed integer. -/
def intDigits : Int → List Char
  | .ofNat n => Nat.toDigits 10 n
  | .negSucc n => '-' :: Nat.toDigits 10 (n + 1)

@[simp] theorem toList_toString_nat (n : Nat) : (toString n).toList = Nat.toDigits 10 n :=
  Nat.toList_repr

@[simp] theorem toList_toString_int (i : Int) : (toString i).toList = intDigits i := by
  cases i with
  | ofNat n => exact Nat.toList_repr
  | negSucc n =>
    change ("-" ++ Nat.repr (n + 1)).toList = _
    rw [String.toList_append, Nat.toList_repr]
    rfl

theorem isWord_intDigits (i : Int) : IsWord (intDigits i) := by
  cases i with
  | ofNat n => exact isWord_toDigits n
  | negSucc n =>
    refine ⟨List.cons_ne_nil _ _, ?_⟩
    intro c hc
    rcases List.mem_cons.mp hc with rfl | hc
    · decide
    · exact (isWord_toDigits (n + 1)).solid c hc

theorem null_notMem_intDigits (i : Int) : '\x00' ∉ intDigits i := by
  cases i with
  | ofNat n => exact null_notMem_toDigits n
  | negSucc n => simpa [intDigits] using null_notMem_toDigits (n + 1)

theorem parseI32_intDigits {i : Int} (hlow : -2 ^ 31 ≤ i) (hhigh : i < 2 ^ 31) :
    parseI32 (intDigits i) = .ok i := by
  cases i with
  | ofNat n =>
    obtain ⟨c, digits, hdigits, hplus, hminus⟩ := toDigits_eq_cons n
    rw [intDigits, hdigits]
    unfold parseI32
    split
    · next hnil => cases hnil
    · next hsign => exact absurd (List.cons.inj hsign).1 hplus
    · next hsign => exact absurd (List.cons.inj hsign).1 hminus
    · have hn : n ≤ 2 ^ 31 - 1 := by
        rw [Int.ofNat_eq_natCast] at hhigh
        omega
      rw [← hdigits, parseMagnitude_toDigits hn]
      rfl
  | negSucc n =>
    rw [intDigits, parseI32, parseMagnitude_toDigits (by omega)]
    rfl

end Decimals

/-- The word of a gateway. -/
def gatewayWord (gatewayId : Nat) : List Char := "gateway-".toList ++ Nat.toDigits 10 gatewayId

theorem gatewayWord_eq (gatewayId : Nat) :
    gatewayWord gatewayId = "gateway-".toList ++ Nat.toDigits 10 gatewayId := rfl

theorem isWord_gatewayWord (gatewayId : Nat) : IsWord (gatewayWord gatewayId) := by
  have hpattern : IsWord "gateway-".toList := by decide
  refine ⟨List.append_ne_nil_of_right_ne_nil _ Nat.toDigits_ne_nil, ?_⟩
  intro c hc
  rcases List.mem_append.mp hc with hc | hc
  · exact hpattern.solid c hc
  · exact (isWord_toDigits gatewayId).solid c hc

theorem gatewayWord_parse {gatewayId : Nat} (h : gatewayId < 2 ^ 8) :
    "gateway-".toList.isPrefixOf (gatewayWord gatewayId) = true ∧
      parseU8 ((gatewayWord gatewayId).drop "gateway-".toList.length) = .ok gatewayId := by
  unfold gatewayWord
  generalize "gateway-".toList = pattern
  constructor
  · exact List.isPrefixOf_iff_prefix.mpr (List.prefix_append _ _)
  · rw [List.drop_left]
    exact parseU8_toDigits h

theorem helloMessage_words (gatewayId : Nat) (encryptionKey : Int) :
    (helloMessage gatewayId encryptionKey).toList =
      joinWords ["HELLO".toList, gatewayWord gatewayId, intDigits encryptionKey] := by
  have htext : helloMessage gatewayId encryptionKey =
      "HELLO gateway-" ++ toString gatewayId ++ " " ++ toString encryptionKey := rfl
  have hhello : "HELLO gateway-".toList = "HELLO".toList ++ ' ' :: "gateway-".toList := by decide
  have hblank : " ".toList = [' '] := by decide
  simp only [htext, String.toList_append, toList_toString_nat, toList_toString_int, hhello, hblank,
    joinWords, gatewayWord_eq, List.append_assoc, List.cons_append, List.nil_append]

theorem message_words (a : Acceptance) :
    (GatewayManager.Acceptance.message a).toList =
      joinWords [intDigits a.clientSession, gatewayWord a.gatewayId, "ACCEPT".toList,
        Nat.toDigits 10 a.portData, Nat.toDigits 10 a.portControl,
        intDigits a.encryptedSession] := by
  have htext : GatewayManager.Acceptance.message a =
      toString a.clientSession ++ " gateway-" ++ toString a.gatewayId ++ " ACCEPT " ++
        toString a.portData ++ " " ++ toString a.portControl ++ " " ++
        toString a.encryptedSession := rfl
  have hgateway : " gateway-".toList = ' ' :: "gateway-".toList := by decide
  have haccept : " ACCEPT ".toList = ' ' :: ("ACCEPT".toList ++ [' ']) := by decide
  have hblank : " ".toList = [' '] := by decide
  simp only [htext, String.toList_append, toList_toString_nat, toList_toString_int, hgateway,
    haccept, hblank, joinWords, gatewayWord_eq, List.append_assoc, List.cons_append,
    List.nil_append]

/-- Words with single blanks between them. -/
def IsSentence (text : String) : Prop :=
  joinWords (splitWhitespace text.toList) = text.toList ∧ splitWhitespace text.toList ≠ []

instance (text : String) : Decidable (IsSentence text) := inferInstanceAs (Decidable (_ ∧ _))

theorem refusal_words (sessionId : Int) (addressee : List Char) {reason : String}
    (hreason : IsSentence reason) :
    joinWords (intDigits sessionId :: addressee :: "REJECT".toList ::
        splitWhitespace reason.toList) =
      intDigits sessionId ++ ' ' :: (addressee ++ " REJECT ".toList ++ reason.toList) := by
  have hreject : " REJECT ".toList = ' ' :: ("REJECT".toList ++ [' ']) := by decide
  rw [joinWords_cons _ (List.cons_ne_nil _ _), joinWords_cons _ (List.cons_ne_nil _ _),
    joinWords_cons _ hreason.2, hreason.1, hreject]
  simp only [List.append_assoc, List.cons_append, List.nil_append]

theorem rejectMessage_words (sessionId : Int) (gatewayId : Nat) (reason : RejectReason) :
    (rejectMessage sessionId gatewayId reason).toList =
      joinWords (intDigits sessionId :: gatewayWord gatewayId :: "REJECT".toList ::
        splitWhitespace reason.text.toList) := by
  have htext : rejectMessage sessionId gatewayId reason =
      toString sessionId ++ " gateway-" ++ toString gatewayId ++ " REJECT " ++ reason.text := rfl
  have hgateway : " gateway-".toList = ' ' :: "gateway-".toList := by decide
  have hreason : IsSentence reason.text := by
    cases reason <;> decide
  rw [refusal_words sessionId (gatewayWord gatewayId) hreason]
  simp only [htext, String.toList_append, toList_toString_nat, toList_toString_int, hgateway,
    gatewayWord_eq, List.append_assoc, List.cons_append]

theorem splitWhitespace_helloMessage (gatewayId : Nat) (encryptionKey : Int) :
    splitWhitespace (helloMessage gatewayId encryptionKey).toList =
      ["HELLO".toList, gatewayWord gatewayId, intDigits encryptionKey] := by
  have hwords : ∀ word ∈ ["HELLO".toList, gatewayWord gatewayId, intDigits encryptionKey],
      IsWord word := by
    have hhello : IsWord "HELLO".toList := by decide
    simp only [List.forall_mem_cons]
    exact ⟨hhello, isWord_gatewayWord _, isWord_intDigits _, List.forall_mem_nil _⟩
  rw [helloMessage_words, splitWhitespace_joinWords hwords]

theorem parseHello_helloMessage {sessionId encryptionKey : Int} {gatewayId : Nat}
    (hgateway : gatewayId < maxGateways) (hlow : -2 ^ 31 ≤ encryptionKey)
    (hhigh : encryptionKey < 2 ^ 31) :
    parseHello sessionId (helloMessage gatewayId encryptionKey).toList =
      .ok ⟨gatewayId, encryptionKey⟩ := by
  have hmax : gatewayId < 16 := hgateway
  obtain ⟨hpattern, hparse⟩ := gatewayWord_parse (Nat.lt_trans hmax (by decide : 16 < 2 ^ 8))
  have hid : parseGatewayId sessionId (gatewayWord gatewayId) = .ok gatewayId := by
    unfold parseGatewayId
    dsimp only
    rw [if_neg (not_not.mpr hpattern), hparse]
    exact if_pos hgateway
  unfold parseHello
  rw [splitWhitespace_helloMessage]
  dsimp only
  rw [if_neg (not_not.mpr rfl), hid]
  dsimp only
  rw [parseI32_intDigits hlow hhigh]

/-- The words behind the first two, the last of them without null characters. -/
structure IsTail (tail : List (List Char)) : Prop where
  words : ∀ word ∈ tail, IsWord word
  last : ∃ word, tail.getLast? = some word ∧ '\x00' ∉ word

instance (tail : List (List Char)) : Decidable (IsTail tail) :=
  decidable_of_iff (tail.all (fun word => decide (IsWord word)) = true ∧
      tail.getLast?.any (fun word => !word.elem '\x00') = true) <| by
    have hwords : tail.all (fun word => decide (IsWord word)) = true ↔
        ∀ word ∈ tail, IsWord word := by simp
    have hlast : tail.getLast?.any (fun word => !word.elem '\x00') = true ↔
        ∃ word, tail.getLast? = some word ∧ '\x00' ∉ word := by
      simp [Option.any_eq_true]
    rw [hwords, hlast]
    exact ⟨fun h => ⟨h.1, h.2⟩, fun h => ⟨h.words, h.last⟩⟩

theorem cleanMessage_addressed {session : Int} {addressee : List Char} {tail : List (List Char)}
    (haddressee : IsWord addressee) (htail : IsTail tail) :
    splitWhitespace (trimMatches isWhitespace
      (trimMatches (· = '\x00') (joinWords (intDigits session :: addressee :: tail)))) =
        intDigits session :: addressee :: tail := by
  obtain ⟨last, hlast, hnull⟩ := htail.last
  have hends : (intDigits session :: addressee :: tail).getLast? = some last := by
    rw [List.getLast?_cons_cons, List.getLast?_cons, hlast]
    rfl
  refine cleanMessage_joinWords hends ?_ (null_notMem_intDigits session) hnull
  simp only [List.forall_mem_cons]
  exact ⟨isWord_intDigits session, haddressee, htail.words⟩

theorem parseCoreResponse_addressed {session expectedSession : Int}
    {gatewayId expectedGatewayId : Nat} {command : List Char} {arguments : List (List Char)}
    (hlow : -2 ^ 31 ≤ session) (hhigh : session < 2 ^ 31) (hgateway : gatewayId < 2 ^ 8)
    (htail : IsTail (command :: arguments)) :
    parseCoreResponse
        (joinWords (intDigits session :: gatewayWord gatewayId :: command :: arguments))
        expectedSession expectedGatewayId =
      if session = expectedSession ∧ gatewayId = expectedGatewayId then
        parseCommand gatewayId command arguments
      else .ignore := by
  obtain ⟨hpattern, hparse⟩ := gatewayWord_parse hgateway
  unfold parseCoreResponse
  dsimp only
  rw [cleanMessage_addressed (isWord_gatewayWord gatewayId) htail]
  dsimp only
  rw [parseI32_intDigits hlow hhigh]
  dsimp only
  by_cases hsession : session = expectedSession
  · rw [if_neg (not_not.mpr hsession), if_neg (not_not.mpr hpattern), hparse]
    dsimp only
    by_cases hid : gatewayId = expectedGatewayId
    · rw [if_neg (not_not.mpr hid), if_pos ⟨hsession, hid⟩]
    · rw [if_pos hid, if_neg fun h => hid h.2]
  · rw [if_pos hsession, if_neg fun h => hsession h.1]

theorem parseCoreResponse_unaddressed {session expectedSession : Int} {expectedGatewayId : Nat}
    {addressee command : List Char} {arguments : List (List Char)} (haddressee : IsWord addressee)
    (hnobody : "gateway-".toList.isPrefixOf addressee = true →
      ∃ e, parseU8 (addressee.drop "gateway-".toList.length) = .error e)
    (htail : IsTail (command :: arguments)) :
    parseCoreResponse (joinWords (intDigits session :: addressee :: command :: arguments))
      expectedSession expectedGatewayId = .ignore := by
  unfold parseCoreResponse
  dsimp only
  rw [cleanMessage_addressed haddressee htail]
  dsimp only
  cases parseI32 (intDigits session) with
  | error e => rfl
  | ok sessionId =>
    dsimp only
    by_cases hsession : sessionId = expectedSession
    · rw [if_neg (not_not.mpr hsession)]
      by_cases hpattern : "gateway-".toList.isPrefixOf addressee = true
      · obtain ⟨e, he⟩ := hnobody hpattern
        rw [if_neg (not_not.mpr hpattern), he]
      · rw [if_pos hpattern]
    · rw [if_pos hsession]

theorem toInt_ofInt_32 {i : Int} (hlow : -2 ^ 31 ≤ i) (hhigh : i < 2 ^ 31) :
    (BitVec.ofInt 32 i).toInt = i := by
  rw [BitVec.toInt_ofInt]
  exact Int.bmod_eq_of_le (by omega) (by omega)

/-- The key takes off what it put on. -/
theorem xorI32_xorI32 (key : Int) {session : Int} (hlow : -2 ^ 31 ≤ session)
    (hhigh : session < 2 ^ 31) : xorI32 (xorI32 key session) key = session := by
  unfold xorI32
  rw [BitVec.ofInt_toInt, BitVec.xor_comm, ← BitVec.xor_assoc, BitVec.xor_self, BitVec.zero_xor,
    toInt_ofInt_32 hlow hhigh]

theorem xorI32_range (a b : Int) : -2 ^ 31 ≤ xorI32 a b ∧ xorI32 a b < 2 ^ 31 :=
  ⟨BitVec.le_toInt _, BitVec.toInt_lt⟩

/-- The client with this session and gateway id reads the response; every other ignores it. -/
structure OnlyRead (message : String) (session : Int) (gatewayId : Nat)
    (response : CoreResponse) : Prop where
  addressee : parseCoreResponse message.toList session gatewayId = response
  others : ∀ session' gatewayId', session' ≠ session ∨ gatewayId' ≠ gatewayId →
    parseCoreResponse message.toList session' gatewayId' = .ignore

/-- Every client ignores the message. -/
def Unread (message : String) : Prop :=
  ∀ session gatewayId, parseCoreResponse message.toList session gatewayId = .ignore

/-- The texts the core turns a greeting of a session down with. -/
inductive Refuses (sessionId : Int) : String → Prop
  | greeting {message : List Char} {refusal : Refusal} {text : String}
      (refused : parseHello sessionId message = .error refusal)
      (reply : refusal.reply = some text) : Refuses sessionId text
  | connection {m : GatewayManager} {gatewayId : Nat} {refusal : Refusal} {text : String}
      (gateway : gatewayId < 2 ^ 8)
      (refused : m.checkDuplicateConnection sessionId gatewayId = .error refusal)
      (reply : refusal.reply = some text) : Refuses sessionId text
  | authentication {gatewayId : Nat} (gateway : gatewayId < 2 ^ 8) :
      Refuses sessionId s!"{sessionId} gateway-{gatewayId} REJECT Authentication failed"

section Reading

variable {session : Int} (hlow : -2 ^ 31 ≤ session) (hhigh : session < 2 ^ 31)

include hlow hhigh

theorem onlyRead_addressed {message : String} {gatewayId : Nat} {command : List Char}
    {arguments : List (List Char)} (hgateway : gatewayId < 2 ^ 8)
    (htail : IsTail (command :: arguments))
    (hmessage : message.toList =
      joinWords (intDigits session :: gatewayWord gatewayId :: command :: arguments)) :
    OnlyRead message session gatewayId (parseCommand gatewayId command arguments) := by
  constructor
  · rw [hmessage, parseCoreResponse_addressed hlow hhigh hgateway htail, if_pos ⟨rfl, rfl⟩]
  · intro session' gatewayId' hother
    rw [hmessage, parseCoreResponse_addressed hlow hhigh hgateway htail, if_neg]
    rintro ⟨rfl, rfl⟩
    exact hother.elim (fun h => h rfl) fun h => h rfl

theorem onlyRead_rejectMessage {gatewayId : Nat} (hgateway : gatewayId < 2 ^ 8)
    (reason : RejectReason) :
    OnlyRead (rejectMessage session gatewayId reason) session gatewayId
      (.reject reason.text) := by
  have htail : IsTail ("REJECT".toList :: splitWhitespace reason.text.toList) := by
    cases reason <;> decide
  have hresponse : parseCommand gatewayId "REJECT".toList (splitWhitespace reason.text.toList) =
      .reject reason.text := by
    have hcommand : "REJECT".toList ≠ "ACCEPT".toList := by decide
    have hreason : IsSentence reason.text := by
      cases reason <;> decide
    rw [parseCommand, if_neg fun h => hcommand h.1,
      if_pos ⟨rfl, List.length_pos_iff.mpr hreason.2⟩, hreason.1, String.ofList_toList]
  rw [← hresponse]
  exact onlyRead_addressed hlow hhigh hgateway htail (rejectMessage_words session gatewayId reason)

theorem onlyRead_message {gatewayId portData portControl : Nat} {dedicated encrypted : Int}
    (hgateway : gatewayId < 2 ^ 8) (hdata : portData < 2 ^ 16) (hcontrol : portControl < 2 ^ 16)
    (hencrypted : -2 ^ 31 ≤ encrypted ∧ encrypted < 2 ^ 31) :
    OnlyRead (GatewayManager.Acceptance.message
        ⟨session, gatewayId, dedicated, portData, portControl, encrypted⟩) session gatewayId
      (.accept portData portControl encrypted gatewayId) := by
  have hcommand : IsWord "ACCEPT".toList := by decide
  have htail : IsTail ["ACCEPT".toList, Nat.toDigits 10 portData, Nat.toDigits 10 portControl,
      intDigits encrypted] := by
    refine ⟨?_, intDigits encrypted, rfl, null_notMem_intDigits encrypted⟩
    simp only [List.forall_mem_cons]
    exact ⟨hcommand, isWord_toDigits _, isWord_toDigits _, isWord_intDigits _,
      List.forall_mem_nil _⟩
  have hports : parseU16 (Nat.toDigits 10 portData) = .ok portData ∧
      parseU16 (Nat.toDigits 10 portControl) = .ok portControl :=
    ⟨parseUnsigned_toDigits (by omega), parseUnsigned_toDigits (by omega)⟩
  have hresponse : parseCommand gatewayId "ACCEPT".toList
      [Nat.toDigits 10 portData, Nat.toDigits 10 portControl, intDigits encrypted] =
        .accept portData portControl encrypted gatewayId := by
    rw [parseCommand, if_pos ⟨rfl, rfl⟩]
    simp only [List.getD_cons_zero, List.getD_cons_succ, hports.1, hports.2,
      parseI32_intDigits hencrypted.1 hencrypted.2]
  rw [← hresponse]
  exact onlyRead_addressed hlow hhigh hgateway htail (message_words _)

end Reading

theorem unread_refusal {sessionId : Int} {addressee : List Char} {message ending : String}
    (reason : String) (haddressee : IsWord addressee)
    (hnobody : "gateway-".toList.isPrefixOf addressee = true →
      ∃ e, parseU8 (addressee.drop "gateway-".toList.length) = .error e)
    (hreason : IsSentence reason)
    (htail : IsTail ("REJECT".toList :: splitWhitespace reason.toList))
    (hmessage : message = toString sessionId ++ " " ++ String.ofList addressee ++ ending)
    (hending : ending.toList = " REJECT ".toList ++ reason.toList) : Unread message := by
  have hblank : " ".toList = [' '] := by decide
  have hwords : message.toList =
      intDigits sessionId ++ ' ' :: (addressee ++ " REJECT ".toList ++ reason.toList) := by
    simp only [hmessage, String.toList_append, toList_toString_int, String.toList_ofList, hblank,
      hending, List.append_assoc, List.cons_append, List.nil_append]
  intro session gatewayId
  rw [hwords, ← refusal_words sessionId addressee hreason]
  exact parseCoreResponse_unaddressed haddressee hnobody htail

theorem eq_rejectMessage {sessionId : Int} {gatewayId : Nat} {text ending : String}
    (reason : RejectReason)
    (htext : text = toString sessionId ++ " gateway-" ++ toString gatewayId ++ ending)
    (hending : ending.toList = " REJECT ".toList ++ reason.text.toList) :
    text = rejectMessage sessionId gatewayId reason := by
  have hmessage : rejectMessage sessionId gatewayId reason =
      toString sessionId ++ " gateway-" ++ toString gatewayId ++ " REJECT " ++ reason.text := rfl
  apply String.toList_inj.mp
  simp only [htext, hmessage, String.toList_append, hending, List.append_assoc]

theorem parseDigits_le {bound result n : Nat} {overflow : ParseIntError} {digits : List Char}
    (hresult : result ≤ bound) (h : parseDigits bound overflow result digits = .ok n) :
    n ≤ bound := by
  induction digits generalizing result with
  | nil =>
    cases h
    exact hresult
  | cons c digits ih =>
    rw [parseDigits] at h
    dsimp only at h
    split_ifs at h with hdigit hnext
    exact ih hnext h

theorem parseU8_lt {word : List Char} {n : Nat} (h : parseU8 word = .ok n) : n < 2 ^ 8 := by
  have hmagnitude : ∀ digits, parseMagnitude 255 .posOverflow digits = .ok n → n < 2 ^ 8 := by
    intro digits hdigits
    unfold parseMagnitude at hdigits
    split_ifs at hdigits
    exact Nat.lt_succ_of_le (parseDigits_le (Nat.zero_le 255) hdigits)
  unfold parseU8 at h
  split at h
  · cases h
  · exact hmagnitude _ h
  · exact hmagnitude _ h

theorem parseGatewayId_reply {sessionId : Int} {word : List Char} {refusal : Refusal}
    {text : String} (hword : IsWord word) (h : parseGatewayId sessionId word = .error refusal)
    (hreply : refusal.reply = some text) :
    (∃ id < 2 ^ 8, text = rejectMessage sessionId id .outOfRange) ∨ Unread text := by
  unfold parseGatewayId at h
  dsimp only at h
  split_ifs at h with hpattern
  · cases hparse : parseU8 (word.drop "gateway-".toList.length) with
    | ok id =>
      rw [hparse] at h
      dsimp only at h
      split_ifs at h with hrange
      cases h
      cases hreply
      exact .inl ⟨id, parseU8_lt hparse,
        eq_rejectMessage .outOfRange String.append_assoc (by decide)⟩
    | error e =>
      rw [hparse] at h
      cases h
      cases hreply
      exact .inr (unread_refusal "Invalid gateway ID, expected numeric ID" hword
        (fun _ => ⟨e, hparse⟩) (by decide) (by decide) rfl (by decide))
  · cases h
    cases hreply
    exact .inr (unread_refusal "Invalid gateway ID format, expected 'gateway-\x7bid\x7d'" hword
      (fun h => absurd h hpattern) (by decide) (by decide) rfl (by decide))

theorem parseHello_reply {sessionId : Int} {message : List Char} {refusal : Refusal} {text : String}
    (h : parseHello sessionId message = .error refusal) (hreply : refusal.reply = some text) :
    (∃ id < 2 ^ 8, text = rejectMessage sessionId id .outOfRange) ∨ Unread text := by
  have hwords : ∀ word ∈ splitWhitespace message, IsWord word :=
    fun word hword => isWord_of_mem_splitWhitespaceFrom (List.forall_mem_nil _) hword
  have hunknown : IsWord "unknown".toList := by decide
  unfold parseHello at h
  split at h
  · cases h
    cases hreply
  · next hello parts hsplit =>
    split_ifs at h with hhello
    · cases h
      cases hreply
      have htext : toString sessionId ++ " unknown REJECT Malformed HELLO message" =
          toString sessionId ++ " " ++ String.ofList "unknown".toList ++
            " REJECT Malformed HELLO message" := by
        rw [String.append_assoc, String.append_assoc]
        exact congrArg (toString sessionId ++ ·) (by decide)
      refine .inr (unread_refusal "Malformed HELLO message" hunknown ?_ (by decide) (by decide)
        htext (by decide))
      exact fun h => absurd h (by decide)
    · split at h
      · cases h
        cases hreply
      · next gatewayIdStr parts =>
        have hword : IsWord gatewayIdStr := hwords gatewayIdStr (by rw [hsplit]; simp)
        cases hid : parseGatewayId sessionId gatewayIdStr with
        | error refused =>
          rw [hid] at h
          cases h
          exact parseGatewayId_reply hword hid hreply
        | ok gatewayId =>
          rw [hid] at h
          dsimp only at h
          split at h
          · cases h
            cases hreply
          · split at h
            · cases h
              cases hreply
            · cases h

theorem checkDuplicateConnection_reply {m : GatewayManager} {sessionId : Int} {gatewayId : Nat}
    {refusal : Refusal} {text : String}
    (h : m.checkDuplicateConnection sessionId gatewayId = .error refusal)
    (hreply : refusal.reply = some text) :
    ∃ reason, text = rejectMessage sessionId gatewayId reason := by
  unfold GatewayManager.checkDuplicateConnection at h
  dsimp only at h
  split_ifs at h
  · cases h
    cases hreply
    exact ⟨.invalidId, eq_rejectMessage .invalidId
      (String.append_assoc.trans String.append_assoc) (by decide)⟩
  · cases h
    cases hreply
    exact ⟨.alreadyConnected, eq_rejectMessage .alreadyConnected rfl (by decide)⟩

/-- Every refusal is read by the gateway it names, or it names none and nobody reads it. -/
theorem Refuses.read {session : Int} (hlow : -2 ^ 31 ≤ session) (hhigh : session < 2 ^ 31)
    {text : String} (h : Refuses session text) :
    (∃ id < 2 ^ 8, ∃ reason, text = rejectMessage session id reason ∧
      OnlyRead text session id (.reject reason.text)) ∨ Unread text := by
  cases h with
  | greeting refused reply =>
    rcases parseHello_reply refused reply with ⟨id, hid, rfl⟩ | hunread
    · exact .inl ⟨id, hid, .outOfRange, rfl, onlyRead_rejectMessage hlow hhigh hid .outOfRange⟩
    · exact .inr hunread
  | connection gateway refused reply =>
    obtain ⟨reason, rfl⟩ := checkDuplicateConnection_reply refused reply
    exact .inl ⟨_, gateway, reason, rfl, onlyRead_rejectMessage hlow hhigh gateway reason⟩
  | @authentication gatewayId gateway =>
    have htext : s!"{session} gateway-{gatewayId} REJECT Authentication failed" =
        rejectMessage session gatewayId .authenticationFailed :=
      eq_rejectMessage .authenticationFailed rfl (by decide)
    rw [htext]
    exact .inl ⟨gatewayId, gateway, .authenticationFailed, rfl,
      onlyRead_rejectMessage hlow hhigh gateway .authenticationFailed⟩

/-- The greeting is understood; the acceptance is read by its addressee only and gives it the
ports and the session; every rejection that names a gateway is read by that gateway only, and the
others by nobody. -/
theorem handshake_understood {session key dedicated : Int} {gatewayId portData portControl : Nat}
    (hsession : -2 ^ 31 ≤ session ∧ session < 2 ^ 31) (hkey : -2 ^ 31 ≤ key ∧ key < 2 ^ 31)
    (hdedicated : -2 ^ 31 ≤ dedicated ∧ dedicated < 2 ^ 31) (hgateway : gatewayId < maxGateways)
    (hdata : portData < 2 ^ 16) (hcontrol : portControl < 2 ^ 16) :
    parseHello session (helloMessage gatewayId key).toList = .ok ⟨gatewayId, key⟩ ∧
      OnlyRead (GatewayManager.Acceptance.message
          ⟨session, gatewayId, dedicated, portData, portControl, xorI32 key dedicated⟩)
        session gatewayId (.accept portData portControl (xorI32 key dedicated) gatewayId) ∧
      establish key (.accept portData portControl (xorI32 key dedicated) gatewayId) =
        .ok (portData, portControl, dedicated) ∧
      (∀ id < 2 ^ 8, ∀ reason,
        OnlyRead (rejectMessage session id reason) session id (.reject reason.text)) ∧
      ∀ text, Refuses session text →
        (∃ id < 2 ^ 8, ∃ reason, text = rejectMessage session id reason ∧
          OnlyRead text session id (.reject reason.text)) ∨ Unread text := by
  have hid : gatewayId < 2 ^ 8 := Nat.lt_trans hgateway (by decide)
  refine ⟨parseHello_helloMessage hgateway hkey.1 hkey.2,
    onlyRead_message hsession.1 hsession.2 hid hdata hcontrol (xorI32_range key dedicated), ?_,
    fun id hlt reason => onlyRead_rejectMessage hsession.1 hsession.2 hlt reason,
    fun text htext => htext.read hsession.1 hsession.2⟩
  rw [establish, xorI32_xorI32 key hdedicated.1 hdedicated.2]

/-- The extremes: the least session and key, the last gateway and the last port. -/
theorem handshake_understood_extremes :
    parseHello (-2 ^ 31) (helloMessage 15 (-2 ^ 31)).toList = .ok ⟨15, -2 ^ 31⟩ ∧
      OnlyRead (GatewayManager.Acceptance.message
          ⟨-2 ^ 31, 15, 2 ^ 31 - 1, 0, 2 ^ 16 - 1, xorI32 (-2 ^ 31) (2 ^ 31 - 1)⟩)
        (-2 ^ 31) 15 (.accept 0 (2 ^ 16 - 1) (xorI32 (-2 ^ 31) (2 ^ 31 - 1)) 15) ∧
      establish (-2 ^ 31) (.accept 0 (2 ^ 16 - 1) (xorI32 (-2 ^ 31) (2 ^ 31 - 1)) 15) =
        .ok (0, 2 ^ 16 - 1, 2 ^ 31 - 1) ∧
      (∀ id < 2 ^ 8, ∀ reason,
        OnlyRead (rejectMessage (-2 ^ 31) id reason) (-2 ^ 31) id (.reject reason.text)) ∧
      ∀ text, Refuses (-2 ^ 31) text →
        (∃ id < 2 ^ 8, ∃ reason, text = rejectMessage (-2 ^ 31) id reason ∧
          OnlyRead text (-2 ^ 31) id (.reject reason.text)) ∨ Unread text :=
  handshake_understood (by decide) (by decide) (by decide) (by decide) (by decide) (by decide)

end VexCore.Networking
