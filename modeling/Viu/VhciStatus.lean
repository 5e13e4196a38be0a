/-
# The status table of the kernel

`client::parse_status` drops the header line and parses the records behind it,
once or more, each a sequence of words and of decimal numbers that fit an
`int`. The kernel prints the device id in hexadecimal. A letter in it ends the
number where a blank is due: then the table is not consumed, and `parse_status`
of the driver takes nothing from it. Without a letter the id is read in the
wrong base, and is right when it has one digit (`understood_iff`).
-/
import Mathlib.Data.List.Forall2
import Viu.Json
import Viu.Lib.Digits
import Viu.Lib.Ints
import Viu.Lib.Peg
import Viu.VhciPorts

namespace Viu

open Bytes Text Peg Cut

namespace Vhci

/-! ### The parser -/

/-- A line of the table. -/
structure VhciHcdStatus where
  hub : List Char
  port : I32
  sta : I32
  spd : I32
  dev : I32
  sockfd : I32
  localBuisid : List Char
  deriving DecidableEq, Repr

/-- `char_ - (char_(' ') | '\n')`, of ASCII characters. -/
def isStringChar (c : Char) : Bool := c.toNat < 128 ∧ c ≠ ' ' ∧ c ≠ '\n'

def string_ : Parser Char Word := run isStringChar

def separator_ : Parser Char Word := run fun c => c = ' '

/-- A sign, and digits as many as there are; the number has to fit. -/
def int_ : Parser Char I32 := fun s =>
  let (negative, cs) := signed s
  let digits := cs.takeWhile Char.isDigit
  let rest := cs.dropWhile Char.isDigit
  if digits = [] then none
  else if negative then
    if ofDigits 10 digits ≤ 2 ^ 31 then some (-BitVec.ofNat 32 (ofDigits 10 digits), rest) else none
  else if ofDigits 10 digits < 2 ^ 31 then some (BitVec.ofNat 32 (ofDigits 10 digits), rest)
  else none

/-- `*lit("\n")`. -/
def newlines : Parser Char Unit := fun s => some ((), s.dropWhile fun c => c = '\n')

/-- The skipper is used in front only. -/
def lexeme {α : Type} (p : Parser Char α) : Parser Char α := fun s => p (s.dropWhile isSpace)

/-- What `vhci_hcd_status_parser_def` repeats. -/
def vhciHcdStatus : Parser Char VhciHcdStatus :=
  lexeme (string_.bind fun hub => separator_.bind fun _ =>
    int_.bind fun port => separator_.bind fun _ =>
    int_.bind fun sta => separator_.bind fun _ =>
    int_.bind fun spd => separator_.bind fun _ =>
    int_.bind fun dev => separator_.bind fun _ =>
    int_.bind fun sockfd => separator_.bind fun _ =>
    string_.bind fun localBuisid => newlines.bind fun _ =>
      .pure ⟨hub, port, sta, spd, dev, sockfd, localBuisid⟩)

def vhciHcdStatusParser : Parser Char (List VhciHcdStatus) := plus vhciHcdStatus

/-- `phrase_parse`: the result, and what is left. -/
def phraseParse (s : List Char) : Option (List VhciHcdStatus) × List Char :=
  match vhciHcdStatusParser s with
  | none => (none, s.dropWhile isSpace)
  | some (result, rest) => (some result, rest.dropWhile isSpace)

/-- Up to the first newline, if there is one. -/
def dropHeader (s : List Char) : List Char :=
  if '\n' ∈ s then (s.dropWhile fun c => c ≠ '\n').tail else s

/-- `client::parse_status`: what it returns and the records in `result`. -/
def clientParseStatus (text : List Char) : Bool × List VhciHcdStatus :=
  let (result, rest) := phraseParse (dropHeader text)
  (result.isSome ∧ rest = [], result.getD [])

end Vhci

/-! ### The driver's copy -/

namespace Driver

open Vhci

structure VirtualDevice where
  hub : HubSpeed
  port : U8
  status : U32
  devid : U32
  busnum : U8
  devnum : U8
  deriving DecidableEq, Repr

/-- As `resize` makes it. -/
def VirtualDevice.zero : VirtualDevice := ⟨.high, 0, 0, 0, 0, 0⟩

/-- What a line leaves in an entry of `devices_`. -/
def VirtualDevice.of (status : VhciHcdStatus) : VirtualDevice where
  hub := if status.hub = "hs".toList then .high else .super
  port := status.port.setWidth 8
  status := status.sta
  devid := status.dev
  busnum := (status.dev.sshiftRight 16).setWidth 8
  devnum := (status.dev &&& 0x0000ffff#32).setWidth 8

/-- The number of the port as an index. -/
def index (status : VhciHcdStatus) : ℕ := (status.port.signExtend 64).toNat

/-- `devices_.at(status.port)` checks the index. -/
def update (devices : List VirtualDevice) (status : VhciHcdStatus) : Except Exn (List VirtualDevice) :=
  if index status < devices.length then .ok (devices.set (index status) (.of status)) else .error .outOfRange

def parseStatus (devices : List VirtualDevice) (value : List Char) : Except Exn (List VirtualDevice) :=
  match clientParseStatus value with
  | (true, vhciHcdStatus) => vhciHcdStatus.foldlM update devices
  | (false, _) => .ok devices

/-- A text that is not taken leaves the entries as they are. -/
theorem parseStatus_of_false {devices : List VirtualDevice} {text : List Char}
    (h : (clientParseStatus text).1 = false) :
    parseStatus devices text = .ok devices := by
  unfold parseStatus
  split
  · rename_i heq
    rw [heq] at h
    cases h
  · rfl

end Driver

/-! ### What the kernel prints -/

namespace Vhci

/-- The bus id of a device. -/
structure BusId where
  text : List Char
  ne_nil : text ≠ []
  printed : ∀ c ∈ text, c ≠ ' ' ∧ c ≠ '\n' ∧ c ≠ '\x00'

/-- A line of the kernel's table. -/
structure PortLine where
  hub : HubSpeed
  port : U32
  sta : U32
  spd : U32
  devid : U32
  sockfd : U32
  busid : BusId

def HubSpeed.text : HubSpeed → List Char
  | .high => "hs".toList
  | .super => "ss".toList

/-- `%0wu` and `%0wx`. -/
def pad (w : ℕ) (digits : List Char) : List Char := List.replicate (w - digits.length) '0' ++ digits

def printU (w : ℕ) (n : U32) : List Char := pad w (Nat.toDigits 10 n.toNat)

def printX (w : ℕ) (n : U32) : List Char := pad w (Nat.toDigits 16 n.toNat)

/-- `"%s  %04u %03u %03u %08x %06u %s\n"`. -/
def PortLine.print (l : PortLine) : List Char :=
  l.hub.text ++ ' ' :: ' ' :: (printU 4 l.port ++ ' ' :: (printU 3 l.sta ++ ' ' :: (printU 3 l.spd ++
    ' ' :: (printX 8 l.devid ++ ' ' :: (printU 6 l.sockfd ++ ' ' :: (l.busid.text ++ ['\n']))))))

def printTable (header : List Char) (table : List PortLine) : List Char :=
  header ++ '\n' :: table.flatMap PortLine.print

/-- The record has the values of the line. -/
structure PortLine.Reads (l : PortLine) (v : VhciHcdStatus) : Prop where
  hub : v.hub = l.hub.text
  port : v.port.toInt = l.port.toNat
  sta : v.sta.toInt = l.sta.toNat
  spd : v.spd.toInt = l.spd.toNat
  dev : v.dev.toInt = l.devid.toNat
  sockfd : v.sockfd.toInt = l.sockfd.toNat

/-- The printed table is parsed to its lines. -/
def Understood (header : List Char) (table : List PortLine) : Prop :=
  (clientParseStatus (printTable header table)).1 = true ∧
    List.Forall₂ PortLine.Reads table (clientParseStatus (printTable header table)).2

/-- The numbers fit an `int`, the device id has one digit, and the bus id is ASCII. -/
structure PortLine.Plain (l : PortLine) : Prop where
  port : l.port.toNat < 2 ^ 31
  sta : l.sta.toNat < 2 ^ 31
  spd : l.spd.toNat < 2 ^ 31
  devid : l.devid.toNat < 10
  sockfd : l.sockfd.toNat < 2 ^ 31
  busid : ∀ c ∈ l.busid.text, c.toNat < 128

/-! ### A number of the table -/

/-- Digits, hexadecimal or not, are none of the other characters of a line. -/
theorem ne_of_hex {c : Char} (h : digitValue c < 16) : c ≠ ' ' ∧ c ≠ '\n' ∧ c ≠ '-' ∧ c ≠ '+' := by
  refine ⟨?_, ?_, ?_, ?_⟩ <;>
  · rintro rfl
    exact absurd h (by decide)

theorem hex_of_mem_pad {b w n : ℕ} (hb : 1 < b) (h16 : b ≤ 16) :
    ∀ c ∈ pad w (Nat.toDigits b n), digitValue c < 16 := by
  intro c hc
  rcases List.mem_append.mp hc with hc | hc
  · rw [List.eq_of_mem_replicate hc]
    decide
  · refine Digits.forall_mem_toDigits (P := fun c => digitValue c < 16) hb (fun d hd => ?_) n c hc
    rw [digitValue_digitChar (by omega)]
    omega

theorem ofDigits_pad (b w : ℕ) (ds : List Char) : ofDigits b (pad w ds) = ofDigits b ds :=
  Digits.value_zeros (by decide) _ ds

theorem pad_ne_nil {w : ℕ} {ds : List Char} (h : ds ≠ []) : pad w ds ≠ [] :=
  List.append_ne_nil_of_right_ne_nil _ h

theorem separator_blank {rest : List Char} (hrest : ∀ c ∈ rest.head?, c ≠ ' ') :
    separator_ (' ' :: rest) = some ([' '], rest) := by
  apply run_append (w := [' ']) (by simp) (by simp)
  simpa using hrest

theorem separator_none {c : Char} (h : c ≠ ' ') (rest : List Char) : separator_ (c :: rest) = none := by
  apply run_none
  simpa using h

/-- Without a sign the number ends where the digits do. -/
theorem int_append {w rest : List Char} (hsigned : signed (w ++ rest) = (false, w ++ rest))
    (hw : ∀ c ∈ w, c.isDigit = true) (hrest : ∀ c ∈ rest.head?, c.isDigit = false) :
    int_ (w ++ rest) =
      if w ≠ [] ∧ ofDigits 10 w < 2 ^ 31 then some (BitVec.ofNat 32 (ofDigits 10 w), rest) else none := by
  simp only [int_, hsigned, takeWhile_append hw hrest, dropWhile_append hw hrest, Bool.false_eq_true, ↓reduceIte]
  by_cases hne : w = []
  · rw [if_pos hne, if_neg fun h => h.1 hne]
  · simp only [hne, ne_eq, not_false_eq_true, true_and, ↓reduceIte]

/-- A number and the blank behind it: it is taken if it is decimal and fits. -/
theorem int_separator {α : Type} {ds rest : List Char} [Decidable (∀ c ∈ ds, c.isDigit = true)] (hne : ds ≠ [])
    (hhex : ∀ c ∈ ds, digitValue c < 16) (hrest : ∀ c ∈ rest.head?, c ≠ ' ') (f : I32 → Parser Char α) :
    int_.bind (fun v => separator_.bind fun _ => f v) (ds ++ ' ' :: rest) =
      if (∀ c ∈ ds, c.isDigit = true) ∧ ofDigits 10 ds < 2 ^ 31 then f (BitVec.ofNat 32 (ofDigits 10 ds)) rest
      else none := by
  have hsigned : signed (ds ++ ' ' :: rest) = (false, ds ++ ' ' :: rest) := by
    obtain ⟨d, ds', rfl⟩ := List.exists_cons_of_ne_nil hne
    have hd := ne_of_hex (hhex d List.mem_cons_self)
    exact signed_of_ne hd.2.2.1 hd.2.2.2 _
  by_cases hdec : ∀ c ∈ ds, c.isDigit = true
  · -- the digits end at the blank
    have hint := int_append hsigned hdec (by simp)
    by_cases hlt : ofDigits 10 ds < 2 ^ 31
    · rw [if_pos ⟨hne, hlt⟩] at hint
      rw [Parser.bind_some hint, Parser.bind_some (separator_blank hrest), if_pos ⟨hdec, hlt⟩]
    · rw [if_neg fun h => hlt h.2] at hint
      rw [Parser.bind_none hint, if_neg fun h => hlt h.2]
  · -- they end at a letter, where a blank is due
    rw [if_neg fun h => hdec h.1]
    obtain ⟨w, c, w', rfl, hw, hc⟩ := exists_stop hdec
    have hblank : c ≠ ' ' := (ne_of_hex (hhex c (by simp))).1
    rw [List.append_assoc, List.cons_append] at hsigned ⊢
    have hint := int_append hsigned hw (by simpa using hc)
    split at hint
    · rw [Parser.bind_some hint, Parser.bind_none (separator_none hblank _)]
    · rw [Parser.bind_none hint]

theorem head_pad {b w n : ℕ} (hb : 1 < b) (h16 : b ≤ 16) (rest : List Char) :
    ∀ c ∈ (pad w (Nat.toDigits b n) ++ rest).head?, c ≠ ' ' := by
  obtain ⟨d, ds, hds⟩ := List.exists_cons_of_ne_nil (pad_ne_nil (w := w) (Nat.toDigits_ne_nil (b := b) (n := n)))
  have hd : digitValue d < 16 := hex_of_mem_pad (w := w) (n := n) hb h16 d (by rw [hds]; exact List.mem_cons_self)
  rw [hds]
  intro c hc
  rw [← Option.some.inj hc]
  exact (ne_of_hex hd).1

theorem head_printU (w : ℕ) (n : U32) (rest : List Char) : ∀ c ∈ (printU w n ++ rest).head?, c ≠ ' ' :=
  head_pad (by decide) (by decide) rest

theorem head_printX (w : ℕ) (n : U32) (rest : List Char) : ∀ c ∈ (printX w n ++ rest).head?, c ≠ ' ' :=
  head_pad (by decide) (by decide) rest

theorem printU_separator {α : Type} (w : ℕ) (n : U32) {rest : List Char} (hrest : ∀ c ∈ rest.head?, c ≠ ' ')
    (f : I32 → Parser Char α) :
    int_.bind (fun v => separator_.bind fun _ => f v) (printU w n ++ ' ' :: rest) =
      if n.toNat < 2 ^ 31 then f n rest else none := by
  have hdec : ∀ c ∈ printU w n, c.isDigit = true := by
    intro c hc
    rcases List.mem_append.mp hc with hc | hc
    · rw [List.eq_of_mem_replicate hc]
      rfl
    · exact isDigit_toDigits c hc
  have hval : ofDigits 10 (printU w n) = n.toNat := by
    rw [printU, ofDigits_pad]
    exact Digits.value_toDigits (by decide) (fun d hd => digitValue_digitChar (by omega)) n.toNat
  have hint := @int_separator α (printU w n) rest inferInstance (pad_ne_nil Nat.toDigits_ne_nil)
    (hex_of_mem_pad (by decide) (by decide)) hrest f
  rw [hint]
  refine if_congr ?_ ?_ rfl
  · rw [hval]
    exact and_iff_right hdec
  · rw [hval, BitVec.ofNat_toNat, BitVec.setWidth_eq]

theorem printX_separator {α : Type} (w : ℕ) (n : U32) [Decidable (∀ c ∈ Nat.toDigits 16 n.toNat, c.isDigit = true)]
    {rest : List Char} (hrest : ∀ c ∈ rest.head?, c ≠ ' ') (f : I32 → Parser Char α) :
    int_.bind (fun v => separator_.bind fun _ => f v) (printX w n ++ ' ' :: rest) =
      if (∀ c ∈ Nat.toDigits 16 n.toNat, c.isDigit = true) ∧ ofDigits 10 (Nat.toDigits 16 n.toNat) < 2 ^ 31 then
        f (BitVec.ofNat 32 (ofDigits 10 (Nat.toDigits 16 n.toNat))) rest
      else none := by
  have hdec : (∀ c ∈ printX w n, c.isDigit = true) ↔ ∀ c ∈ Nat.toDigits 16 n.toNat, c.isDigit = true := by
    refine ⟨fun h c hc => h c (List.mem_append_right _ hc), fun h c hc => ?_⟩
    rcases List.mem_append.mp hc with hc | hc
    · rw [List.eq_of_mem_replicate hc]
      rfl
    · exact h c hc
  have hval : ofDigits 10 (printX w n) = ofDigits 10 (Nat.toDigits 16 n.toNat) := ofDigits_pad 10 w _
  have hint := @int_separator α (printX w n) rest inferInstance (pad_ne_nil Nat.toDigits_ne_nil)
    (hex_of_mem_pad (by decide) (by decide)) hrest f
  rw [hint, hval]
  exact if_congr (and_congr_left' hdec) rfl rfl

/-! ### A line of the table -/

/-- The numbers are taken. -/
def PortLine.Scans (l : PortLine) : Prop :=
  l.port.toNat < 2 ^ 31 ∧ l.sta.toNat < 2 ^ 31 ∧ l.spd.toNat < 2 ^ 31 ∧
    ((∀ c ∈ Nat.toDigits 16 l.devid.toNat, c.isDigit = true) ∧
      ofDigits 10 (Nat.toDigits 16 l.devid.toNat) < 2 ^ 31) ∧ l.sockfd.toNat < 2 ^ 31

instance (l : PortLine) : Decidable l.Scans := inferInstanceAs (Decidable (_ ∧ _))

/-- What is taken, with this bus id. -/
def PortLine.scanned (l : PortLine) (localBuisid : List Char) : VhciHcdStatus where
  hub := l.hub.text
  port := l.port
  sta := l.sta
  spd := l.spd
  dev := BitVec.ofNat 32 (ofDigits 10 (Nat.toDigits 16 l.devid.toNat))
  sockfd := l.sockfd
  localBuisid := localBuisid

theorem hub_text (hub : HubSpeed) : hub.text ≠ [] ∧ ∀ c ∈ hub.text, isStringChar c = true ∧ isSpace c = false := by
  cases hub <;> simp [HubSpeed.text, isStringChar, isSpace]

theorem head_print (l : PortLine) (rest : List Char) :
    ∀ c ∈ (l.print ++ rest).head?, isSpace c = false ∧ c ≠ '\n' := by
  intro c hc
  obtain ⟨d, ds, hds⟩ := List.exists_cons_of_ne_nil (hub_text l.hub).1
  have hd := (hub_text l.hub).2 d (by rw [hds]; exact List.mem_cons_self)
  rw [PortLine.print, hds] at hc
  rw [← Option.some.inj hc]
  exact ⟨hd.2, fun hnl => absurd hd.2 (by rw [hnl]; decide)⟩

theorem busid_head (b : BusId) (rest : List Char) : ∀ c ∈ (b.text ++ rest).head?, c ≠ ' ' := by
  obtain ⟨d, ds, hds⟩ := List.exists_cons_of_ne_nil b.ne_nil
  rw [hds]
  intro c hc
  rw [← Option.some.inj hc]
  exact (b.printed d (by rw [hds]; exact List.mem_cons_self)).1

/-- A line as far as its bus id. -/
theorem vhciHcdStatus_print (l : PortLine) (rest : List Char) :
    vhciHcdStatus (l.print ++ rest) =
      if l.Scans then
        string_.bind (fun localBuisid => newlines.bind fun _ => .pure (l.scanned localBuisid))
          (l.busid.text ++ '\n' :: rest)
      else none := by
  have hskip : (l.print ++ rest).dropWhile isSpace = l.print ++ rest :=
    dropWhile_stop fun c hc => (head_print l rest c hc).1
  have hhub : ∀ s, string_ (l.hub.text ++ ' ' :: s) = some (l.hub.text, ' ' :: s) := fun s =>
    run_append (hub_text l.hub).1 (fun c hc => ((hub_text l.hub).2 c hc).1) (by simp; decide)
  have hblanks : ∀ s, (∀ c ∈ s.head?, c ≠ ' ') → separator_ (' ' :: ' ' :: s) = some ([' ', ' '], s) := fun s hs =>
    run_append (w := [' ', ' ']) (by simp) (by simp) (by simpa using hs)
  refine Eq.trans ?_ (if_congr (Iff.rfl : _ ∧ _ ∧ _ ∧ (_ ∧ _) ∧ _ ↔ l.Scans) rfl rfl)
  rw [vhciHcdStatus, lexeme, hskip, PortLine.print]
  simp only [List.append_assoc, List.cons_append, List.nil_append]
  rw [Parser.bind_some (hhub _), Parser.bind_some (hblanks _ (head_printU 4 l.port _)),
    printU_separator 4 l.port (head_printU 3 l.sta _), printU_separator 3 l.sta (head_printU 3 l.spd _),
    printU_separator 3 l.spd (head_printX 8 l.devid _), printX_separator 8 l.devid (head_printU 6 l.sockfd _),
    printU_separator 6 l.sockfd (busid_head _ _)]
  simp only [ite_and]
  rfl

/-! ### The table -/

/-- The line is taken, and its bus id with it. -/
def PortLine.Parses (l : PortLine) : Prop := l.Scans ∧ ∀ c ∈ l.busid.text, c.toNat < 128

instance (l : PortLine) : Decidable l.Parses := inferInstanceAs (Decidable (_ ∧ _))

theorem isStringChar_busid (b : BusId) {c : Char} (hc : c ∈ b.text) : isStringChar c = true ↔ c.toNat < 128 := by
  have hp := b.printed c hc
  simp [isStringChar, hp.1, hp.2.1]

/-- What a line has behind it: another line, or nothing. -/
def NoNewline (s : List Char) : Prop := ∀ c ∈ s.head?, c ≠ '\n'

theorem newlines_one {rest : List Char} (hrest : NoNewline rest) : newlines ('\n' :: rest) = some ((), rest) := by
  have hstop : rest.dropWhile (fun c => decide (c = '\n')) = rest := dropWhile_stop fun c hc =>
    decide_eq_false (hrest c hc)
  rw [newlines, List.dropWhile_cons_of_pos rfl, hstop]

theorem vhciHcdStatus_some {l : PortLine} {rest : List Char} (h : l.Parses) (hrest : NoNewline rest) :
    vhciHcdStatus (l.print ++ rest) = some (l.scanned l.busid.text, rest) := by
  have hbusid : string_ (l.busid.text ++ '\n' :: rest) = some (l.busid.text, '\n' :: rest) :=
    run_append l.busid.ne_nil (fun c hc => (isStringChar_busid l.busid hc).mpr (h.2 c hc)) (by simp; decide)
  rw [vhciHcdStatus_print, if_pos h.1, Parser.bind_some hbusid, Parser.bind_some (newlines_one hrest)]
  rfl

theorem vhciHcdStatus_nil : vhciHcdStatus [] = none := rfl

/-- Input that the skipper does not take away. -/
def Left (s : List Char) : Prop := s.dropWhile isSpace ≠ []

theorem left_of_head {s : List Char} (hne : s ≠ []) (h : ∀ c ∈ s.head?, isSpace c = false) : Left s := by
  rw [Left, dropWhile_stop h]
  exact hne

theorem left_print (l : PortLine) (rest : List Char) : Left (l.print ++ rest) := by
  refine left_of_head ?_ fun c hc => (head_print l rest c hc).1
  rw [PortLine.print]
  simp [(hub_text l.hub).1]

/-- A character that is not ASCII is the end. -/
theorem vhciHcdStatus_foreign {c : Char} (h : 128 ≤ c.toNat) (rest : List Char) :
    vhciHcdStatus (c :: rest) = none ∧ Left (c :: rest) := by
  have hspace : isSpace c = false := by
    rw [isSpace, decide_eq_false_iff_not]
    omega
  have hchar : isStringChar c = false := by
    rw [isStringChar, decide_eq_false_iff_not]
    omega
  have hhead : ∀ d ∈ (c :: rest).head?, isSpace d = false := fun d hd => Option.some.inj hd ▸ hspace
  refine ⟨?_, left_of_head (List.cons_ne_nil _ _) hhead⟩
  rw [vhciHcdStatus, lexeme, dropWhile_stop hhead]
  exact Parser.bind_none (run_none fun d hd => Option.some.inj hd ▸ hchar)

/-- In a bus id that is not ASCII the record ends at the foreign character, or does not begin. -/
theorem left_star_foreign {l : PortLine} (hscan : l.Scans) (hforeign : ¬ ∀ c ∈ l.busid.text, isStringChar c = true)
    (rest : List Char) (n : ℕ) : Left (star vhciHcdStatus n (l.print ++ rest)).2 := by
  obtain ⟨w, c, w', htext, hw, hc⟩ := exists_stop hforeign
  have hc128 : 128 ≤ c.toNat := by
    by_contra hlt
    rw [(isStringChar_busid l.busid (by rw [htext]; simp)).mpr (by omega)] at hc
    cases hc
  have hbusid : l.busid.text ++ '\n' :: rest = w ++ c :: (w' ++ '\n' :: rest) := by
    rw [htext, List.append_assoc, List.cons_append]
  have hstop : ∀ d ∈ (c :: (w' ++ '\n' :: rest)).head?, isStringChar d = false := fun d hd => Option.some.inj hd ▸ hc
  by_cases hnil : w = []
  · -- the bus id begins with it
    have hrecord : vhciHcdStatus (l.print ++ rest) = none := by
      rw [vhciHcdStatus_print, if_pos hscan, hbusid, hnil]
      exact Parser.bind_none (run_none hstop)
    rw [star_none hrecord]
    exact left_print l rest
  · have hrecord : vhciHcdStatus (l.print ++ rest) = some (l.scanned w, c :: (w' ++ '\n' :: rest)) := by
      have hnl : c ≠ '\n' := by
        rintro rfl
        exact absurd hc128 (by decide)
      have hrun : string_ (w ++ c :: (w' ++ '\n' :: rest)) = some (w, c :: (w' ++ '\n' :: rest)) :=
        run_append hnil hw hstop
      rw [vhciHcdStatus_print, if_pos hscan, hbusid, Parser.bind_some hrun]
      simp [Parser.bind, newlines, Parser.pure, hnl]
    obtain ⟨hnone, hleft⟩ := vhciHcdStatus_foreign hc128 (w' ++ '\n' :: rest)
    cases n with
    | zero => exact left_print l rest
    | succ n =>
      rw [star_some hrecord, star_none hnone]
      exact hleft

/-- A line that is not taken whole stops the parser. -/
theorem left_star {l : PortLine} (h : ¬ l.Parses) (rest : List Char) (n : ℕ) :
    Left (star vhciHcdStatus n (l.print ++ rest)).2 := by
  by_cases hscan : l.Scans
  · apply left_star_foreign hscan
    exact fun hall => h ⟨hscan, fun c hc => (isStringChar_busid l.busid hc).mp (hall c hc)⟩
  · have hrecord : vhciHcdStatus (l.print ++ rest) = none := by rw [vhciHcdStatus_print, if_neg hscan]
    rw [star_none hrecord]
    exact left_print l rest

theorem dropHeader_printTable {header : List Char} (h : '\n' ∉ header) (table : List PortLine) :
    dropHeader (printTable header table) = table.flatMap PortLine.print := by
  have hmem : '\n' ∈ printTable header table := by simp [printTable]
  have hdrop : (header ++ '\n' :: table.flatMap PortLine.print).dropWhile (fun c => decide (c ≠ '\n')) =
      '\n' :: table.flatMap PortLine.print := by
    refine dropWhile_append (fun c hc => decide_eq_true ?_) (by simp)
    rintro rfl
    exact h hc
  rw [dropHeader, if_pos hmem, printTable, hdrop]
  rfl

theorem length_le_flatMap (table : List PortLine) : table.length ≤ (table.flatMap PortLine.print).length := by
  rw [List.length_flatMap]
  induction table with
  | nil => exact le_rfl
  | cons l table ih =>
    have hone : 0 < l.print.length := by simp [PortLine.print]
    simp only [List.map_cons, List.sum_cons, List.length_cons]
    omega

/-- Where every line is taken the records are what they say. -/
theorem clientParseStatus_of_parses {header : List Char} (hh : '\n' ∉ header) {table : List PortLine}
    (hne : table ≠ []) (h : ∀ l ∈ table, l.Parses) :
    clientParseStatus (printTable header table) = (true, table.map fun l => l.scanned l.busid.text) := by
  have hstar := star_flatMap NoNewline (fun c hc => nomatch hc)
    (fun l rest c hc => (head_print l rest c hc).2) vhciHcdStatus_nil
    (fun l rest hl hrest => vhciHcdStatus_some hl hrest) table _ (length_le_flatMap table) h
  have hmap : (table.map fun l => l.scanned l.busid.text) ≠ [] := by simpa using hne
  rw [clientParseStatus, dropHeader_printTable hh, phraseParse, vhciHcdStatusParser, plus, hstar, if_neg hmap]
  rfl

/-- Where one is not the table is not consumed. -/
theorem clientParseStatus_of_not_parses {header : List Char} (hh : '\n' ∉ header) {table : List PortLine}
    (h : ∃ l ∈ table, ¬ l.Parses) : (clientParseStatus (printTable header table)).1 = false := by
  have hleft := star_stuck NoNewline Left (fun c hc => nomatch hc)
    (fun l rest c hc => (head_print l rest c hc).2) (fun l rest hl hrest => vhciHcdStatus_some hl hrest)
    (fun l rest n hl _ => left_star hl rest n) left_print table (table.flatMap PortLine.print).length h
  rw [clientParseStatus, dropHeader_printTable hh, phraseParse, vhciHcdStatusParser, plus]
  by_cases hnil : (star vhciHcdStatus (table.flatMap PortLine.print).length (table.flatMap PortLine.print)).1 = []
  · rw [if_pos hnil]
    rfl
  · rw [if_neg hnil]
    exact decide_eq_false fun hok => hleft hok.2

theorem toInt_of_lt {v : U32} (h : v.toNat < 2 ^ 31) : BitVec.toInt v = v.toNat := by
  have hv := Ints.toInt_ofNat_of_lt h
  rwa [BitVec.ofNat_toNat, BitVec.setWidth_eq] at hv

/-- A hexadecimal number without letters, read as a decimal one. -/
theorem decimal_eq_iff {n : ℕ} (h : ∀ c ∈ Nat.toDigits 16 n, c.isDigit = true) :
    ofDigits 10 (Nat.toDigits 16 n) = n ↔ n < 10 := by
  have hone : ofDigits 10 (Nat.toDigits 16 n) = n ↔ n < 16 :=
    Digits.value_toDigits_eq_iff (by decide) (by decide) (by decide) (fun _ => digitValue_digitChar) n
  rw [hone]
  refine ⟨fun hn => ?_, fun hn => by omega⟩
  rw [Nat.toDigits_of_lt_base hn] at h
  have hdigit := h _ List.mem_cons_self
  rw [Nat.isDigit_digitChar] at hdigit
  exact of_decide_eq_true hdigit

theorem reads_scanned_iff {l : PortLine} (h : l.Scans) (b : List Char) :
    l.Reads (l.scanned b) ↔ l.devid.toNat < 10 := by
  obtain ⟨hport, hsta, hspd, ⟨hdec, hfits⟩, hsockfd⟩ := h
  have hdev : (l.scanned b).dev.toInt = ofDigits 10 (Nat.toDigits 16 l.devid.toNat) := Ints.toInt_ofNat_of_lt hfits
  rw [← decimal_eq_iff hdec]
  refine ⟨fun hr => ?_, fun hn => ?_⟩
  · have hread := hr.dev
    rw [hdev] at hread
    exact Int.ofNat.inj hread
  · exact ⟨rfl, toInt_of_lt hport, toInt_of_lt hsta, toInt_of_lt hspd, by rw [hdev, hn], toInt_of_lt hsockfd⟩

theorem plain_iff (l : PortLine) : l.Plain ↔ l.Parses ∧ l.devid.toNat < 10 := by
  refine ⟨fun h => ⟨⟨⟨h.port, h.sta, h.spd, ?_, h.sockfd⟩, h.busid⟩, h.devid⟩, fun ⟨h, hten⟩ => ?_⟩
  · have hdec : ∀ c ∈ Nat.toDigits 16 l.devid.toNat, c.isDigit = true := by
      have hten := h.devid
      rw [Nat.toDigits_of_lt_base (by omega)]
      intro c hc
      rw [List.mem_singleton.mp hc, Nat.isDigit_digitChar]
      exact decide_eq_true hten
    refine ⟨hdec, ?_⟩
    rw [(decimal_eq_iff hdec).mpr h.devid]
    have hten := h.devid
    omega
  · obtain ⟨⟨hport, hsta, hspd, -, hsockfd⟩, hbusid⟩ := h
    exact ⟨hport, hsta, hspd, hten, hsockfd, hbusid⟩

theorem understood_of_parses {header : List Char} (hh : '\n' ∉ header) {table : List PortLine} (hne : table ≠ [])
    (h : ∀ l ∈ table, l.Parses) : Understood header table ↔ ∀ l ∈ table, l.devid.toNat < 10 := by
  rw [Understood, clientParseStatus_of_parses hh hne h, List.forall₂_map_right_iff, List.forall₂_same]
  simp only [true_and]
  exact forall₂_congr fun l hl => reads_scanned_iff (h l hl).1 _

/-- **The table is understood** if it has lines and they are plain. A line that is
not taken makes the driver ignore all of it. -/
theorem understood_iff {header : List Char} (hh : '\n' ∉ header) (table : List PortLine) :
    (Understood header table ↔ table ≠ [] ∧ ∀ l ∈ table, l.Plain) ∧
      ∀ devices, (∃ l ∈ table, ¬ l.Parses) → Driver.parseStatus devices (printTable header table) = .ok devices := by
  refine ⟨?_, fun devices h => ?_⟩
  · by_cases hparses : ∀ l ∈ table, l.Parses
    · by_cases hne : table = []
      · subst hne
        refine iff_of_false (fun h => ?_) fun h => h.1 rfl
        have hok := h.1
        rw [clientParseStatus, dropHeader_printTable hh] at hok
        cases hok
      · rw [understood_of_parses hh hne hparses, and_iff_right hne]
        exact forall₂_congr fun l hl => by rw [plain_iff, and_iff_right (hparses l hl)]
    · refine iff_of_false (fun h => ?_) fun h => hparses fun l hl => ((plain_iff l).mp (h.2 l hl)).1
      have hok := h.1
      rw [clientParseStatus_of_not_parses hh (by simpa using hparses)] at hok
      cases hok
  · exact Driver.parseStatus_of_false (clientParseStatus_of_not_parses hh h)

/-- The kernel's header. -/
def kernelHeader : List Char := "hub port sta spd dev      sockfd local_busid".toList

def BusId.root : BusId := ⟨"0-0".toList, by simp, by simp⟩

/-- The line of a port on which no device is in use. -/
theorem parses_zeros {hub : HubSpeed} {port sta : U32} (hport : port.toNat < 2 ^ 31) (hsta : sta.toNat < 2 ^ 31) :
    (PortLine.mk hub port sta 0 0 0 .root).Parses := by
  have hzero : (0 : U32).toNat < 2 ^ 31 := by decide
  have hroot : ∀ c ∈ BusId.root.text, c.toNat < 128 := by simp [BusId.root]
  exact ((plain_iff _).mp ⟨hport, hsta, hzero, (by decide : (0 : U32).toNat < 10), hzero, hroot⟩).1

/-- A free port. -/
def freePort (hub : HubSpeed) (port : U32) : PortLine := ⟨hub, port, 4, 0, 0, 0, .root⟩

theorem understood_free : Understood kernelHeader [freePort .high 0, freePort .super 1] := by
  refine (understood_iff (by decide) _).1.mpr ⟨by decide, fun l hl => ?_⟩
  rcases List.mem_cons.mp hl with rfl | hl
  · exact ⟨by decide, by decide, by decide, by decide, by decide, by simp [freePort, BusId.root]⟩
  · rw [List.mem_singleton.mp hl]
    exact ⟨by decide, by decide, by decide, by decide, by decide, by simp [freePort, BusId.root]⟩

/-- Device 10 of bus 1 on the second port. -/
def foreignDevice : List PortLine :=
  [freePort .high 0, ⟨.high, 1, 6, 3, 0x0001000a, 3, ⟨"1-1".toList, by simp, by simp⟩⟩]

/-- The free port is not seen; device 2 is read as 10002. -/
theorem not_understood_foreignDevice :
    Driver.parseStatus [.zero, .zero] (printTable kernelHeader foreignDevice) = .ok [.zero, .zero] ∧
    clientParseStatus (printTable kernelHeader [⟨.high, 1, 6, 3, 0x00010002, 3, .root⟩]) =
      (true, [⟨"hs".toList, 1, 6, 3, 10002, 3, "0-0".toList⟩]) ∧
    ¬ ∀ header table, '\n' ∉ header → table ≠ [] → Understood header table := by
  refine ⟨by decide +kernel, by decide +kernel, fun h => ?_⟩
  have hok := (h kernelHeader foreignDevice (by decide) (by decide)).1
  exact absurd hok (by decide +kernel)

end Vhci
end Viu
