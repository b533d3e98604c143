import ScuffedCrew.Rust.Checked
import ScuffedCrew.Rust.IpAddr

/-!
# The address that a request is counted under

The key of the site's rate limits and that of the relay gate's connection caps.
Networks, and the text of a header value, come from other packages.
-/

namespace ScuffedCrew.RateLimit

open Rust

section keys

variable {Net : Type} (contains : Net → IpAddr → Bool) (toStr : Bytes → Option Text)

def isTrusted (trusted : List Net) (ip : IpAddr) : Bool := trusted.any fun net => contains net ip

/-- `part.trim().parse::<IpAddr>().ok()`. -/
def parsePart (part : Text) : Option IpAddr := IpAddr.parse part.trim

/-- The entries of the header lines, from the client to the nearest proxy. -/
def forwardedIps (headers : List Bytes) : List IpAddr :=
  headers.flatMap fun value =>
    match toStr value with
    | some s => (s.splitOn ',').filterMap parsePart
    | none => []

def clientFromForwardedFor (headers : List Bytes) (trusted : List Net) : Option IpAddr :=
  let ips := forwardedIps toStr headers
  match ips.reverse.find? fun ip => !isTrusted contains trusted ip with
  | some ip => some ip
  | none => ips.head?

def resolveKey (trusted : List Net) (peer : IpAddr) (headers : List Bytes) : IpAddr :=
  if !isTrusted contains trusted peer then peer
  else
    match clientFromForwardedFor contains toStr headers trusted with
    | some ip => ip
    | none => peer

/-- The rule of the relay gate. -/
def resolveClientIp (peer : IpAddr) (forwarded : List IpAddr) (trusted : List Net) : IpAddr :=
  if !trusted.any fun net => contains net peer then peer
  else
    match forwarded.reverse.find? fun ip => !trusted.any fun net => contains net ip with
    | some ip => ip
    | none => forwarded.head?.getD peer

end keys

/-! ## The text of a header value -/

def isVisibleAscii (byte : UInt8) : Bool := (32 ≤ byte && byte < 127) || byte == 9

def asciiText (value : Bytes) : Text := value.map fun byte => Char.ofNat byte.toNat

def Readable (value : Bytes) : Prop := value.all isVisibleAscii = true

instance (value : Bytes) : Decidable (Readable value) := inferInstanceAs (Decidable (_ = true))

/-- A header value is text where all its bytes are visible ASCII. -/
def ReadsAscii (toStr : Bytes → Option Text) : Prop :=
  ∀ value, toStr value = if Readable value then some (asciiText value) else none

end ScuffedCrew.RateLimit

/-!
## Who chooses the key

The key is the rightmost untrusted address that the code reads.  It reads a header
line as a whole, so a byte outside ASCII hides every address of its line, also the
one that the proxy wrote behind it.
-/

namespace ScuffedCrew.RateLimit

open Rust

/-- `,` -/
def comma : UInt8 := 44

section addresses

variable {Net : Type} (contains : Net → IpAddr → Bool) (toStr : Bytes → Option Text)
  (trusted : List Net)

/-- The addresses of a line: the entries between commas that parse, whatever the others are. -/
def lineAddresses (line : Bytes) : List IpAddr :=
  (line.splitOn comma).filterMap fun part => (toStr part).bind parsePart

def addresses (lines : List Bytes) : List IpAddr := lines.flatMap (lineAddresses toStr)

/-- `ip` is untrusted, and `ips` ends in it and in trusted addresses. -/
def RightmostUntrusted (ips : List IpAddr) (ip : IpAddr) : Prop :=
  isTrusted contains trusted ip = false ∧ ∃ left right, ips = left ++ ip :: right ∧
    ∀ later ∈ right, isTrusted contains trusted later = true

/-- The two lists agree from their rightmost untrusted address `ip` onwards. -/
def AgreeFrom (lines lines' : List Bytes) (ip : IpAddr) : Prop :=
  isTrusted contains trusted ip = false ∧ ∃ left left' right,
    addresses toStr lines = left ++ ip :: right ∧ addresses toStr lines' = left' ++ ip :: right ∧
      ∀ later ∈ right, isTrusted contains trusted later = true

/-- The last visible line with an untrusted address has `ip` as its last one. -/
def Carried (lines : List Bytes) (ip : IpAddr) : Prop :=
  ∃ before line after, lines = before ++ line :: after ∧ Readable line ∧
    RightmostUntrusted contains trusted (lineAddresses toStr line) ip ∧
    ∀ later ∈ after, Readable later →
      ∀ other ∈ lineAddresses toStr later, isTrusted contains trusted other = true

/-- What forwarded headers may do to the key. -/
def KeyIsNotChosen (peer : IpAddr) (lines lines' : List Bytes) : Prop :=
  let key := resolveKey contains toStr trusted peer
  (isTrusted contains trusted peer = false → key lines = peer ∧ key lines' = peer) ∧
  (isTrusted contains trusted peer = true → ∀ ip,
    AgreeFrom contains toStr trusted lines lines' ip → key lines = ip ∧ key lines' = ip) ∧
  ∀ headers, key headers = resolveClientIp contains peer (forwardedIps toStr headers) trusted

end addresses

/-! ## Reading a line -/

section reading

variable {toStr : Bytes → Option Text}

theorem code_eq_comma : ∀ code < 256,
    (Char.ofNat code == ',') = (UInt8.ofNat code == comma) := by
  decide +kernel

theorem splitOn_asciiText (line : Bytes) :
    (asciiText line).splitOn ',' = (line.splitOn comma).map asciiText := by
  induction line with
  | nil => rfl
  | cons byte line ih =>
      simp only [asciiText, List.map_cons] at ih ⊢
      have same_comma := code_eq_comma byte.toNat byte.toNat_lt
      rw [UInt8.ofNat_toNat] at same_comma
      rw [List.splitOn_cons_eq_if_modifyHead, List.splitOn_cons_eq_if_modifyHead, same_comma, ih]
      split
      next => rfl
      next =>
        cases line.splitOn comma with
        | nil => rfl
        | cons part parts => rfl

theorem mem_of_mem_part {line part : Bytes} {byte : UInt8} (a_part : part ∈ line.splitOn comma)
    (in_part : byte ∈ part) : byte ∈ line := by
  induction line generalizing part with
  | nil => simp_all
  | cons first line ih =>
      rw [List.splitOn_cons_eq_if_modifyHead] at a_part
      split at a_part
      next =>
        rcases List.mem_cons.mp a_part with rfl | later
        · cases in_part
        · exact List.mem_cons_of_mem first (ih later in_part)
      next =>
        cases parts_eq : line.splitOn comma with
        | nil => simp [parts_eq] at a_part
        | cons head parts =>
            rw [parts_eq] at a_part ih
            rcases List.mem_cons.mp a_part with rfl | later
            · rcases List.mem_cons.mp in_part with rfl | rest
              · exact List.mem_cons_self
              · exact List.mem_cons_of_mem first (ih List.mem_cons_self rest)
            · exact List.mem_cons_of_mem first (ih (List.mem_cons_of_mem head later) in_part)

theorem readable_part {line part : Bytes} (readable : Readable line)
    (a_part : part ∈ line.splitOn comma) : Readable part := by
  apply List.all_eq_true.mpr
  intro byte in_part
  exact List.all_eq_true.mp readable byte (mem_of_mem_part a_part in_part)

variable (reads : ReadsAscii toStr)

include reads

/-- On a visible line the code reads every address. -/
theorem forwardedIps_line {line : Bytes} (readable : Readable line) :
    forwardedIps toStr [line] = lineAddresses toStr line := by
  have whole : toStr line = some (asciiText line) := by
    rw [reads line, if_pos readable]
  simp only [forwardedIps, List.flatMap_cons, List.flatMap_nil, List.append_nil, whole,
    splitOn_asciiText, List.filterMap_map, lineAddresses]
  apply List.filterMap_congr
  intro part a_part
  have part_text : toStr part = some (asciiText part) := by
    rw [reads part, if_pos (readable_part readable a_part)]
  simp [part_text]

theorem forwardedIps_hidden {line : Bytes} (hidden : ¬Readable line) :
    forwardedIps toStr [line] = [] := by
  have none_read : toStr line = none := by
    rw [reads line, if_neg hidden]
  simp [forwardedIps, none_read]

theorem forwardedIps_eq (lines : List Bytes) :
    forwardedIps toStr lines =
      (lines.filter fun line => decide (Readable line)).flatMap (lineAddresses toStr) := by
  induction lines with
  | nil => rfl
  | cons line lines ih =>
      have split : forwardedIps toStr (line :: lines) =
          forwardedIps toStr [line] ++ forwardedIps toStr lines := by
        simp [forwardedIps]
      by_cases readable : Readable line
      · simp [split, ih, forwardedIps_line reads readable, readable]
      · simp [split, ih, forwardedIps_hidden reads readable, readable]

end reading

/-! ## The rightmost untrusted address -/

section rightmost

variable {Net : Type} {contains : Net → IpAddr → Bool} {trusted : List Net} {ip : IpAddr}

theorem rightmostUntrusted_append (left right : List IpAddr) :
    RightmostUntrusted contains trusted (left ++ right) ip ↔
      RightmostUntrusted contains trusted right ip ∨
        RightmostUntrusted contains trusted left ip ∧
          ∀ later ∈ right, isTrusted contains trusted later = true := by
  constructor
  · rintro ⟨untrusted, before, after, split, after_trusted⟩
    rcases List.append_eq_append_iff.mp split with ⟨middle, -, rest⟩ | ⟨middle, rfl, rest⟩
    · left
      exact ⟨untrusted, middle, after, rest, after_trusted⟩
    · cases middle with
      | nil =>
          left
          exact ⟨untrusted, [], after, rest.symm, after_trusted⟩
      | cons first middle =>
          rw [List.cons_append, List.cons.injEq] at rest
          rcases rest with ⟨rfl, rfl⟩
          right
          constructor
          · exact ⟨untrusted, before, middle, rfl, fun later here =>
              after_trusted later (List.mem_append_left right here)⟩
          · intro later here
            exact after_trusted later (List.mem_append_right middle here)
  · rintro (⟨untrusted, before, after, rfl, after_trusted⟩ |
      ⟨⟨untrusted, before, after, rfl, after_trusted⟩, right_trusted⟩)
    · exact ⟨untrusted, left ++ before, after, (List.append_assoc _ _ _).symm, after_trusted⟩
    · refine ⟨untrusted, before, after ++ right, by simp, ?_⟩
      intro later here
      rcases List.mem_append.mp here with here | here
      · exact after_trusted later here
      · exact right_trusted later here

theorem find_eq_some_iff (ips : List IpAddr) :
    (ips.reverse.find? fun ip => !isTrusted contains trusted ip) = some ip ↔
      RightmostUntrusted contains trusted ips ip := by
  rw [List.find?_eq_some_iff_append]
  simp only [Bool.not_eq_eq_eq_not, Bool.not_true, Bool.not_not, RightmostUntrusted]
  apply and_congr_right
  intro untrusted
  constructor
  · rintro ⟨right, left, split, right_trusted⟩
    refine ⟨left.reverse, right.reverse, ?_, ?_⟩
    · rw [← List.reverse_reverse ips, split]
      simp
    · intro later here
      exact right_trusted later (List.mem_reverse.mp here)
  · rintro ⟨left, right, rfl, right_trusted⟩
    refine ⟨right.reverse, left.reverse, by simp, ?_⟩
    intro later here
    exact right_trusted later (List.mem_reverse.mp here)

end rightmost

/-! ## The key -/

section key

variable {Net : Type} {contains : Net → IpAddr → Bool} {toStr : Bytes → Option Text}
  {trusted : List Net} {peer ip : IpAddr} {lines : List Bytes}

theorem carried_cons {line : Bytes} :
    Carried contains toStr trusted (line :: lines) ip ↔
      Carried contains toStr trusted lines ip ∨
        Readable line ∧ RightmostUntrusted contains trusted (lineAddresses toStr line) ip ∧
          ∀ later ∈ lines, Readable later →
            ∀ other ∈ lineAddresses toStr later, isTrusted contains trusted other = true := by
  constructor
  · rintro ⟨before, carrier, after, split, carries⟩
    cases before with
    | nil =>
        rw [List.nil_append, List.cons.injEq] at split
        rcases split with ⟨rfl, rfl⟩
        exact .inr carries
    | cons first before =>
        rw [List.cons_append, List.cons.injEq] at split
        exact .inl ⟨before, carrier, after, split.2, carries⟩
  · rintro (⟨before, carrier, after, rfl, carries⟩ | carries)
    · exact ⟨line :: before, carrier, after, rfl, carries⟩
    · exact ⟨[], line, lines, rfl, carries⟩

theorem rightmostUntrusted_forwardedIps (reads : ReadsAscii toStr) :
    RightmostUntrusted contains trusted (forwardedIps toStr lines) ip ↔
      Carried contains toStr trusted lines ip := by
  rw [forwardedIps_eq reads]
  induction lines with
  | nil => simp [RightmostUntrusted, Carried]
  | cons line lines ih =>
      rw [carried_cons, ← ih]
      by_cases readable : Readable line
      · rw [List.filter_cons_of_pos (by simpa using readable), List.flatMap_cons,
          rightmostUntrusted_append]
        have trusted_after : (∀ other ∈ (lines.filter fun line => decide (Readable line)).flatMap
            (lineAddresses toStr), isTrusted contains trusted other = true) ↔
              ∀ later ∈ lines, Readable later →
                ∀ other ∈ lineAddresses toStr later, isTrusted contains trusted other = true := by
          simp only [List.mem_flatMap, List.mem_filter, decide_eq_true_eq]
          constructor
          · intro all later here visible other found
            exact all other ⟨later, ⟨here, visible⟩, found⟩
          · rintro all other ⟨later, ⟨here, visible⟩, found⟩
            exact all later here visible other found
        rw [trusted_after]
        simp [readable]
      · rw [List.filter_cons_of_neg (by simpa using readable)]
        simp [readable]

/-- From a trusted peer, an untrusted key is the rightmost untrusted address that was read. -/
theorem resolveKey_eq_iff (reads : ReadsAscii toStr)
    (trusted_peer : isTrusted contains trusted peer = true)
    (untrusted : isTrusted contains trusted ip = false) :
    resolveKey contains toStr trusted peer lines = ip ↔ Carried contains toStr trusted lines ip := by
  rw [← rightmostUntrusted_forwardedIps reads, ← find_eq_some_iff]
  simp only [resolveKey, trusted_peer, clientFromForwardedFor, Bool.not_true, Bool.false_eq_true,
    if_false]
  cases found : (forwardedIps toStr lines).reverse.find?
    fun ip => !isTrusted contains trusted ip with
  | some client => simp
  | none =>
      have all_trusted : ∀ other ∈ forwardedIps toStr lines,
          isTrusted contains trusted other = true := by
        simpa using found
      cases ips_eq : forwardedIps toStr lines with
      | nil =>
          have other : peer ≠ ip := by
            rintro rfl
            rw [trusted_peer] at untrusted
            cases untrusted
          simpa using other
      | cons first rest =>
          have first_trusted := all_trusted first (by simp [ips_eq])
          have other : first ≠ ip := by
            rintro rfl
            rw [first_trusted] at untrusted
            cases untrusted
          simpa using other

theorem resolveClientIp_eq (forwarded : List IpAddr) :
    resolveClientIp contains peer forwarded trusted =
      if !isTrusted contains trusted peer then peer
      else
        match forwarded.reverse.find? fun ip => !isTrusted contains trusted ip with
        | some ip => ip
        | none => forwarded.head?.getD peer := rfl

theorem resolveKey_eq_resolveClientIp :
    resolveKey contains toStr trusted peer lines =
      resolveClientIp contains peer (forwardedIps toStr lines) trusted := by
  simp only [resolveKey, clientFromForwardedFor, resolveClientIp_eq]
  split
  next => rfl
  next =>
    cases (forwardedIps toStr lines).reverse.find? fun ip => !isTrusted contains trusted ip with
    | some client => rfl
    | none => cases forwardedIps toStr lines <;> rfl

/-- Where every line is visible ASCII, the client of the lists is carried. -/
theorem carried_of_readable (reads : ReadsAscii toStr) (readable : ∀ line ∈ lines, Readable line)
    (client : RightmostUntrusted contains trusted (addresses toStr lines) ip) :
    Carried contains toStr trusted lines ip := by
  rw [← rightmostUntrusted_forwardedIps reads, forwardedIps_eq reads, List.filter_eq_self.mpr]
  · exact client
  · intro line here
    simpa using readable line here

end key

/-- The key is the client's, or the peer's, exactly if the client's address is on a visible line. -/
theorem keyIsNotChosen_iff {Net : Type} (contains : Net → IpAddr → Bool)
    (toStr : Bytes → Option Text) (reads : ReadsAscii toStr) (trusted : List Net) (peer : IpAddr)
    (lines lines' : List Bytes) :
    KeyIsNotChosen contains toStr trusted peer lines lines' ↔
      (isTrusted contains trusted peer = true → ∀ ip,
        AgreeFrom contains toStr trusted lines lines' ip →
          Carried contains toStr trusted lines ip ∧ Carried contains toStr trusted lines' ip) := by
  constructor
  · rintro ⟨-, honest, -⟩ trusted_peer ip agree
    have keys := honest trusted_peer ip agree
    rw [resolveKey_eq_iff reads trusted_peer agree.1, resolveKey_eq_iff reads trusted_peer agree.1]
      at keys
    exact keys
  · intro carried
    refine ⟨?_, ?_, fun headers => resolveKey_eq_resolveClientIp⟩
    · intro untrusted_peer
      simp [resolveKey, untrusted_peer]
    · intro trusted_peer ip agree
      have both := carried trusted_peer ip agree
      simp only [resolveKey_eq_iff reads trusted_peer agree.1]
      exact both

def hostContains (net ip : IpAddr) : Bool := decide (net = ip)

def headerText (value : Bytes) : Option Text :=
  if Readable value then some (asciiText value) else none

def loopback : IpAddr := .v4 [127, 0, 0, 1]

/-- `, 198.51.100.23` -/
def appended : Bytes := [44, 32, 49, 57, 56, 46, 53, 49, 46, 49, 48, 48, 46, 50, 51]

/-- `6.6.6.6` -/
def spoofed : Bytes := [54, 46, 54, 46, 54, 46, 54]

/-- `7.7.7.7` -/
def rotated : Bytes := [55, 46, 55, 46, 55, 46, 55]

/-- The proxy appends the client to a visible line. -/
theorem keyIsNotChosen_iff_visible :
    KeyIsNotChosen hostContains headerText [loopback] loopback [spoofed ++ appended]
      [rotated ++ appended] ↔
      (isTrusted hostContains [loopback] loopback = true → ∀ ip,
        AgreeFrom hostContains headerText [loopback] [spoofed ++ appended] [rotated ++ appended] ip →
          Carried hostContains headerText [loopback] [spoofed ++ appended] ip ∧
            Carried hostContains headerText [loopback] [rotated ++ appended] ip) :=
  keyIsNotChosen_iff hostContains headerText (fun _ => rfl) [loopback] loopback _ _

/-- A byte outside ASCII in front of the client's address: the line before it names the key. -/
theorem key_chosen :
    ¬KeyIsNotChosen hostContains headerText [loopback] loopback [spoofed, 255 :: appended]
      [rotated, 255 :: appended] := by
  rintro ⟨-, honest, -⟩
  have client := honest rfl (.v4 [198, 51, 100, 23])
    ⟨rfl, [.v4 [6, 6, 6, 6]], [.v4 [7, 7, 7, 7]], [], rfl, rfl, by simp⟩
  have key : resolveKey hostContains headerText [loopback] loopback [spoofed, 255 :: appended] =
      .v4 [6, 6, 6, 6] := rfl
  rw [key] at client
  simp at client

end ScuffedCrew.RateLimit
