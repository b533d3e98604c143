import ScuffedCrew.Report.Replacement
import ScuffedCrew.Rust.Bytes

/-!
# Log scrub

The rules that find what a report must not hold.  A literal rule searches for its
needle from left to right, and goes on after the occurrence it has taken, so the
search never sees an occurrence that begins inside that one.
-/

namespace ScuffedCrew.Report

open Rust (Text)

def phSyncToken : Text := "[sync-token]".toList

def phServerUrl : Text := "[server-url]".toList

def phHome : Text := "[home]".toList

def phUser : Text := "[user]".toList

def phHost : Text := "[host]".toList

def phBattletag : Text := "[battletag]".toList

def phPlayer : Text := "[player]".toList

/-- What the regular expressions and the character tables decide.  A match is the letter it starts
at and its number of letters. -/
structure Patterns where
  /-- Simple case folding, as `(?i)` compares letters. -/
  fold : Char → Char
  isAlphanumeric : Char → Bool
  /-- `Regex::new` on the escaped literal, and whether it ignores case. -/
  compiles : Text → Bool → Bool
  /-- The credential group of `BEARER_RE`. -/
  bearer : Text → List (ℕ × ℕ)
  tokenRun : Text → List (ℕ × ℕ)
  base64Run : Text → List (ℕ × ℕ)
  url : Text → List (ℕ × ℕ)
  home : Text → List (ℕ × ℕ)
  battletag : Text → List (ℕ × ℕ)

/-- Letters that differ in case only are word characters together. -/
structure Patterns.FoldsWords (patterns : Patterns) : Prop where
  alphanumeric : ∀ letter other, patterns.fold letter = patterns.fold other →
    patterns.isAlphanumeric letter = patterns.isAlphanumeric other
  underscore : ∀ letter, patterns.fold letter = patterns.fold '_' → letter = '_'

structure ScrubContext where
  syncToken : Option Text
  serverUrl : Option Text
  homeDir : Option Text
  accountName : Option Text
  hostname : Option Text
  playerName : Option Text
  names : List Text

structure Literal where
  needle : Text
  ignoreCase : Bool
  wholeToken : Bool
  placeholder : Text

structure Scrubber where
  literals : List Literal
  serverHost : Option Text

def nonEmpty (text : Option Text) : Option Text :=
  (text.map Text.trim).filter fun text => !text.isEmpty

/-- Lowercase host of a URL, without port or user info. -/
def urlHost (url : Text) : Option Text :=
  let separator := "://".toList
  (url.trim.before separator).bind fun scheme =>
    let rest := url.trim.drop (scheme.length + separator.length)
    let authority := rest.takeWhile fun letter => !(['/', '?', '#'].contains letter)
    let authority := authority.rtakeWhile (· ≠ '@')
    let host : Text := match Text.stripStart authority ['['] with
      | some address => List.takeWhile (· ≠ ']') address
      | none => authority.takeWhile (· ≠ ':')
    if host.isEmpty then none else some host.toAsciiLowercase

def ScrubContext.serverHost (ctx : ScrubContext) : Option Text :=
  (nonEmpty ctx.serverUrl).bind urlHost

/-- The names read in the window and the configured one, with and without its discriminator. -/
def ScrubContext.playerNames (ctx : ScrubContext) : List Text :=
  ctx.names ++ (nonEmpty ctx.playerName).toList.flatMap fun player =>
    player :: ((player.splitOnce '#').map Prod.fst).toList

section Search

variable (patterns : Patterns)

/-- The closure `add` of `Scrubber::new`. -/
def add (ignoreCase wholeToken : Bool) (placeholder needle : Text) : List Literal :=
  let needle := needle.trim
  if needle.isEmpty || !patterns.compiles needle ignoreCase then []
  else [⟨needle, ignoreCase, wholeToken, placeholder⟩]

def Scrubber.new (ctx : ScrubContext) : Scrubber where
  literals :=
    (nonEmpty ctx.syncToken).toList.flatMap (add patterns false false phSyncToken) ++
    (nonEmpty ctx.serverUrl).toList.flatMap (add patterns true false phServerUrl) ++
    ctx.serverHost.toList.flatMap (add patterns true true phServerUrl) ++
    (((ctx.homeDir.map fun home => home.rdropWhile (· = '/')).filter fun home =>
      decide (1 < home.byteLen)).toList.flatMap (add patterns false false phHome)) ++
    (nonEmpty ctx.accountName).toList.flatMap (add patterns true true phUser) ++
    (nonEmpty ctx.hostname).toList.flatMap (add patterns true true phHost) ++
    ctx.playerNames.flatMap (add patterns true true phPlayer)
  serverHost := ctx.serverHost

def isWordChar (letter : Char) : Bool := patterns.isAlphanumeric letter || letter == '_'

/-- The pattern of a literal matches at the start of the text. -/
def startsWith (needle : Text) (ignoreCase : Bool) (text : Text) : Bool :=
  if ignoreCase then (needle.map patterns.fold).isPrefixOf (text.map patterns.fold)
  else needle.isPrefixOf text

/-- `find_iter` of a literal: the letters its matches start at.  The first argument counts the
letters that still belong to the match before. -/
def findFrom (needle : Text) (ignoreCase : Bool) : ℕ → ℕ → Text → List ℕ
  | _, _, [] => []
  | skip + 1, start, _ :: rest => findFrom needle ignoreCase skip (start + 1) rest
  | 0, start, letter :: rest =>
      if startsWith patterns needle ignoreCase (letter :: rest) then
        start :: findFrom needle ignoreCase (needle.length - 1) (start + 1) rest
      else findFrom needle ignoreCase 0 (start + 1) rest

/-- The characters on each side matter only next to a word character of the token. -/
def standsAlone (token : Text) (before after : Option Char) : Bool :=
  !(token.head?.any (isWordChar patterns) && before.any (isWordChar patterns)) &&
    !(token.getLast?.any (isWordChar patterns) && after.any (isWordChar patterns))

def charBefore (text : Text) (start : ℕ) : Option Char := (text.take start).getLast?

def charAfter (text : Text) (stop : ℕ) : Option Char := (text.drop stop).head?

def excerpt (text : Text) (start length : ℕ) : Text := (text.drop start).take length

/-- The bytes of some letters of a text. -/
def charSpan (text placeholder : Text) (start length : ℕ) : Span UInt8 :=
  ⟨Text.byteLen (text.take start), Text.byteLen (text.take (start + length)), placeholder.utf8⟩

def pushRe (text placeholder : Text) (found : List (ℕ × ℕ)) : List (Span UInt8) :=
  found.map fun (start, length) => charSpan text placeholder start length

def pushLiteral (text : Text) (literal : Literal) : List (Span UInt8) :=
  let length := literal.needle.length
  ((findFrom patterns literal.needle literal.ignoreCase 0 0 text).filter fun start =>
    !literal.wholeToken ||
      standsAlone patterns (excerpt text start length) (charBefore text start)
        (charAfter text (start + length))).map
    fun start => charSpan text literal.placeholder start length

/-- The URLs on a host. -/
def urlsOn (host text : Text) : List (ℕ × ℕ) :=
  (patterns.url text).filter fun (start, length) =>
    (urlHost (excerpt text start length)).any fun found => found.eqIgnoreAsciiCase host

def Scrubber.spans (scrubber : Scrubber) (text : Text) : List (Span UInt8) :=
  pushRe text phSyncToken (patterns.bearer text) ++
  pushRe text phSyncToken (patterns.tokenRun text) ++
  pushRe text phSyncToken (patterns.base64Run text) ++
  scrubber.serverHost.toList.flatMap (fun host => pushRe text phServerUrl (urlsOn patterns host text)) ++
  pushRe text phHome (patterns.home text) ++
  pushRe text phBattletag (patterns.battletag text) ++
  scrubber.literals.flatMap (pushLiteral patterns text)

def scrubText (ctx : ScrubContext) (text : Text) : List UInt8 :=
  applySpans text.utf8 ((Scrubber.new patterns ctx).spans patterns text)

/-! ## What is to be covered -/

/-- What a member's report must not hold: the sync token, and as whole tokens the names. -/
def Secret (ctx : ScrubContext) (needle : Text) (wholeToken : Bool) : Prop :=
  needle ≠ [] ∧ ∃ value ∈ if wholeToken then
      ctx.serverHost.toList ++ (nonEmpty ctx.accountName).toList ++
        (nonEmpty ctx.hostname).toList ++ ctx.playerNames
    else (nonEmpty ctx.syncToken).toList, needle = value.trim

/-- The needle is found at a letter of the text, whole tokens in any case. -/
def Occurs (needle : Text) (wholeToken : Bool) (text : Text) (start : ℕ) : Prop :=
  startsWith patterns needle wholeToken (text.drop start) ∧
    (wholeToken → standsAlone patterns needle (charBefore text start)
      (charAfter text (start + needle.length)))

/-- The pieces of the text that are replaced by placeholders. -/
def replaced (ctx : ScrubContext) (text : Text) : List (Span UInt8) :=
  acceptSpans ((Scrubber.new patterns ctx).spans patterns text)

/-- The search from a letter on takes the needle at another: the first it finds, or one it finds
going on after that. -/
inductive Taken (needle : Text) (ignoreCase : Bool) (text : Text) : ℕ → ℕ → Prop where
  | first {begin start : ℕ} (after : begin ≤ start)
      (starts : startsWith patterns needle ignoreCase (text.drop start))
      (none_before : ∀ other, begin ≤ other → other < start →
        ¬startsWith patterns needle ignoreCase (text.drop other)) :
      Taken needle ignoreCase text begin start
  | later {begin start final : ℕ} (after : begin ≤ start)
      (starts : startsWith patterns needle ignoreCase (text.drop start))
      (none_before : ∀ other, begin ≤ other → other < start →
        ¬startsWith patterns needle ignoreCase (text.drop other))
      (rest : Taken needle ignoreCase text (start + needle.length) final) :
      Taken needle ignoreCase text begin final

/-- A rule of the scrub matches some letters of the text. -/
inductive Found (ctx : ScrubContext) (text : Text) : ℕ → ℕ → Prop where
  | pattern {start length : ℕ}
      (found : (start, length) ∈ patterns.bearer text ∨ (start, length) ∈ patterns.tokenRun text ∨
        (start, length) ∈ patterns.base64Run text ∨ (start, length) ∈ patterns.home text ∨
        (start, length) ∈ patterns.battletag text) : Found ctx text start length
  | url {start length : ℕ} {host : Text} (server : ctx.serverHost = some host)
      (found : (start, length) ∈ urlsOn patterns host text) : Found ctx text start length
  | literal {start : ℕ} {literal : Literal}
      (rule : literal ∈ (Scrubber.new patterns ctx).literals)
      (taken : Taken patterns literal.needle literal.ignoreCase text 0 start)
      (alone : literal.wholeToken → standsAlone patterns
        (excerpt text start literal.needle.length) (charBefore text start)
        (charAfter text (start + literal.needle.length))) :
      Found ctx text start literal.needle.length

end Search

/-! ## The search -/

section Taken

variable {patterns : Patterns} {needle text rest : Text} {ignoreCase wholeToken : Bool}
  {begin start position skip : ℕ}

theorem startsWith_nil (some_letter : needle ≠ []) : ¬startsWith patterns needle ignoreCase [] := by
  cases needle with
  | nil => exact absurd rfl some_letter
  | cons letter letters => cases ignoreCase <;> simp [startsWith]

theorem not_taken_of_drop_nil (some_letter : needle ≠ []) (ended : text.drop begin = []) :
    ¬Taken patterns needle ignoreCase text begin start := by
  have nothing : ∀ other, begin ≤ other → ¬startsWith patterns needle ignoreCase (text.drop other) := by
    intro other after
    have empty : text.drop other = [] := by
      rw [List.drop_eq_nil_iff] at ended ⊢
      omega
    rw [empty]
    exact startsWith_nil some_letter
  intro taken
  cases taken with
  | first after starts => exact nothing _ after starts
  | later after starts => exact nothing _ after starts

/-- Where the needle is found, the search takes it and goes on after it. -/
theorem taken_iff_of_starts (starts : startsWith patterns needle ignoreCase (text.drop begin)) :
    Taken patterns needle ignoreCase text begin start ↔
      start = begin ∨ Taken patterns needle ignoreCase text (begin + needle.length) start := by
  have same : ∀ {other}, begin ≤ other → (∀ between, begin ≤ between → between < other →
      ¬startsWith patterns needle ignoreCase (text.drop between)) → other = begin := by
    intro other after none_before
    by_contra different
    exact none_before begin (Nat.le_refl _) (by omega) starts
  constructor
  · intro taken
    cases taken with
    | first after _ none_before => exact .inl (same after none_before)
    | later after _ none_before rest =>
        rw [same after none_before] at rest
        exact .inr rest
  · rintro (rfl | rest)
    · exact .first (Nat.le_refl _) starts fun other after before => by omega
    · exact .later (Nat.le_refl _) starts (fun other after before => by omega) rest

/-- Where it is not found, the search goes on at the next letter. -/
theorem taken_iff_of_misses (misses : ¬startsWith patterns needle ignoreCase (text.drop begin)) :
    Taken patterns needle ignoreCase text begin start ↔
      Taken patterns needle ignoreCase text (begin + 1) start := by
  have past : ∀ {other}, begin ≤ other → startsWith patterns needle ignoreCase (text.drop other) →
      begin + 1 ≤ other := by
    intro other after starts
    rcases Nat.lt_or_eq_of_le after with less | rfl
    · exact less
    · exact absurd starts misses
  have widen : ∀ {other}, (∀ between, begin + 1 ≤ between → between < other →
      ¬startsWith patterns needle ignoreCase (text.drop between)) →
      ∀ between, begin ≤ between → between < other →
        ¬startsWith patterns needle ignoreCase (text.drop between) := by
    intro other none_before between after before
    rcases Nat.lt_or_eq_of_le after with less | rfl
    · exact none_before between less before
    · exact misses
  constructor
  · intro taken
    cases taken with
    | first after starts none_before =>
        exact .first (past after starts) starts fun between after => none_before between (by omega)
    | later after starts none_before rest =>
        exact .later (past after starts) starts (fun between after => none_before between (by omega))
          rest
  · intro taken
    cases taken with
    | first after starts none_before => exact .first (by omega) starts (widen none_before)
    | later after starts none_before rest =>
        exact .later (by omega) starts (widen none_before) rest

theorem mem_findFrom_iff (some_letter : needle ≠ []) (here : rest = text.drop position) :
    start ∈ findFrom patterns needle ignoreCase skip position rest ↔
      Taken patterns needle ignoreCase text (position + skip) start := by
  induction rest generalizing position skip with
  | nil =>
      have ended : text.drop (position + skip) = [] := by
        have past := List.drop_eq_nil_iff.mp here.symm
        exact List.drop_eq_nil_iff.mpr (by omega)
      simpa [findFrom] using not_taken_of_drop_nil some_letter ended
  | cons letter rest ih =>
      have next : rest = text.drop (position + 1) := by
        rw [← List.tail_drop, ← here]
        rfl
      cases skip with
      | succ skip =>
          rw [findFrom, ih next]
          have same : position + 1 + skip = position + (skip + 1) := by omega
          rw [same]
      | zero =>
          have length : 0 < needle.length := List.length_pos_iff.mpr some_letter
          have after : position + 1 + (needle.length - 1) = position + needle.length := by omega
          unfold findFrom
          rw [here]
          split
          next starts => rw [List.mem_cons, ih next, after, Nat.add_zero, taken_iff_of_starts starts]
          next misses =>
            rw [ih next]
            exact (taken_iff_of_misses misses).symm

/-- The search finds the occurrences it takes from the start of the text. -/
theorem mem_findFrom_text (some_letter : needle ≠ []) :
    start ∈ findFrom patterns needle ignoreCase 0 0 text ↔
      Taken patterns needle ignoreCase text 0 start :=
  mem_findFrom_iff some_letter rfl

theorem Taken.starts (taken : Taken patterns needle ignoreCase text begin start) :
    startsWith patterns needle ignoreCase (text.drop start) := by
  induction taken with
  | first after starts none_before => exact starts
  | later after starts none_before rest ih => exact ih

end Taken

/-! ## Whole tokens -/

section WholeToken

variable {patterns : Patterns} {needle text : Text} {ignoreCase : Bool} {start : ℕ}
  {before after : Option Char}

/-- What the pattern matches has the letters of the needle, up to their case. -/
theorem excerpt_fold (starts : startsWith patterns needle ignoreCase (text.drop start)) :
    (excerpt text start needle.length).map patterns.fold = needle.map patterns.fold := by
  unfold startsWith at starts
  split at starts
  next =>
    have same := List.prefix_iff_eq_take.mp (List.isPrefixOf_iff_prefix.mp starts)
    rw [List.length_map, ← List.map_take] at same
    exact same.symm
  next =>
    have same := List.prefix_iff_eq_take.mp (List.isPrefixOf_iff_prefix.mp starts)
    rw [excerpt, ← same]

theorem isWordChar_of_fold (folds : patterns.FoldsWords) {letter other : Char}
    (same : patterns.fold letter = patterns.fold other) :
    isWordChar patterns letter = isWordChar patterns other := by
  have underscore : letter = '_' ↔ other = '_' := by
    constructor
    · rintro rfl
      exact folds.underscore other same.symm
    · rintro rfl
      exact folds.underscore letter same
  simp only [isWordChar, folds.alphanumeric letter other same, beq_eq_decide, underscore]

theorem any_isWordChar_of_fold {found token : Option Char} (folds : patterns.FoldsWords)
    (same : found.map patterns.fold = token.map patterns.fold) :
    found.any (isWordChar patterns) = token.any (isWordChar patterns) := by
  cases found with
  | none =>
      cases token with
      | none => rfl
      | some other => cases same
  | some letter =>
      cases token with
      | none => cases same
      | some other =>
          exact isWordChar_of_fold folds (Option.some.inj same)

/-- The code looks at the ends of the match, which are word characters when those of the needle
are. -/
theorem standsAlone_excerpt (folds : patterns.FoldsWords)
    (starts : startsWith patterns needle ignoreCase (text.drop start)) :
    standsAlone patterns (excerpt text start needle.length) before after =
      standsAlone patterns needle before after := by
  have same := excerpt_fold starts
  have first : (excerpt text start needle.length).head?.map patterns.fold =
      needle.head?.map patterns.fold := by
    rw [← List.head?_map, same, List.head?_map]
  have last : (excerpt text start needle.length).getLast?.map patterns.fold =
      needle.getLast?.map patterns.fold := by
    rw [← List.getLast?_map, same, List.getLast?_map]
  simp only [standsAlone, any_isWordChar_of_fold folds first,
    any_isWordChar_of_fold folds last]

end WholeToken

/-! ## What the rules find -/

section Rules

variable {patterns : Patterns} {ctx : ScrubContext} {text needle : Text} {wholeToken : Bool}
  {start position : ℕ}

theorem mem_add {ignoreCase : Bool} {placeholder value : Text} {literal : Literal} :
    literal ∈ add patterns ignoreCase wholeToken placeholder value ↔
      value.trim ≠ [] ∧ patterns.compiles value.trim ignoreCase ∧
        literal = ⟨value.trim, ignoreCase, wholeToken, placeholder⟩ := by
  unfold add
  cases value.trim with
  | nil => simp
  | cons letter letters =>
      cases compiled : patterns.compiles (letter :: letters) ignoreCase <;> simp [compiled]

theorem needle_ne_nil {literal : Literal} (rule : literal ∈ (Scrubber.new patterns ctx).literals) :
    literal.needle ≠ [] := by
  have added : ∃ ignoreCase wholeToken placeholder value,
      literal ∈ add patterns ignoreCase wholeToken placeholder value := by
    simp only [Scrubber.new, List.mem_append, List.mem_flatMap, or_assoc] at rule
    rcases rule with ⟨value, -, rule⟩ | ⟨value, -, rule⟩ | ⟨value, -, rule⟩ | ⟨value, -, rule⟩ |
      ⟨value, -, rule⟩ | ⟨value, -, rule⟩ | ⟨value, -, rule⟩ <;>
      exact ⟨_, _, _, value, rule⟩
  rcases added with ⟨ignoreCase, wholeToken, placeholder, value, rule⟩
  rcases mem_add.mp rule with ⟨some_letter, -, rfl⟩
  exact some_letter

/-- Every secret has a rule, when its pattern compiles. -/
theorem exists_literal (secret : Secret ctx needle wholeToken)
    (compiled : patterns.compiles needle wholeToken) :
    ∃ literal ∈ (Scrubber.new patterns ctx).literals, literal.needle = needle ∧
      literal.ignoreCase = wholeToken ∧ literal.wholeToken = wholeToken := by
  rcases secret with ⟨some_letter, value, source, rfl⟩
  have rule : ∀ placeholder, ⟨value.trim, wholeToken, wholeToken, placeholder⟩ ∈
      add patterns wholeToken wholeToken placeholder value :=
    fun placeholder => mem_add.mpr ⟨some_letter, compiled, rfl⟩
  suffices ∃ placeholder, ⟨value.trim, wholeToken, wholeToken, placeholder⟩ ∈
      (Scrubber.new patterns ctx).literals by
    rcases this with ⟨placeholder, known⟩
    exact ⟨_, known, rfl, rfl, rfl⟩
  simp only [Scrubber.new, List.mem_append, List.mem_flatMap]
  cases wholeToken with
  | false =>
      have token : value ∈ (nonEmpty ctx.syncToken).toList := source
      exact ⟨_, .inl (.inl (.inl (.inl (.inl (.inl ⟨value, token, rule _⟩)))))⟩
  | true =>
      simp only [if_true, List.mem_append] at source
      rcases source with ((host | account) | hostname) | name
      · exact ⟨_, .inl (.inl (.inl (.inl (.inr ⟨value, host, rule _⟩))))⟩
      · exact ⟨_, .inl (.inl (.inr ⟨value, account, rule _⟩))⟩
      · exact ⟨_, .inl (.inr ⟨value, hostname, rule _⟩)⟩
      · exact ⟨_, .inr ⟨value, name, rule _⟩⟩

theorem mem_pushRe {placeholder : Text} {found : List (ℕ × ℕ)} {span : Span UInt8} :
    span ∈ pushRe text placeholder found ↔
      ∃ start length, (start, length) ∈ found ∧ span = charSpan text placeholder start length := by
  simp only [pushRe, List.mem_map, Prod.exists, eq_comm]

theorem mem_pushLiteral {literal : Literal} (some_letter : literal.needle ≠ [])
    {span : Span UInt8} :
    span ∈ pushLiteral patterns text literal ↔
      ∃ start, Taken patterns literal.needle literal.ignoreCase text 0 start ∧
        (literal.wholeToken → standsAlone patterns
          (excerpt text start literal.needle.length) (charBefore text start)
          (charAfter text (start + literal.needle.length))) ∧
        span = charSpan text literal.placeholder start literal.needle.length := by
  have implies : ∀ whole alone : Bool, (!whole || alone) = true ↔ (whole → alone) := by decide
  simp only [pushLiteral, List.mem_map, List.mem_filter, mem_findFrom_text some_letter, implies,
    and_assoc, @eq_comm _ span]

/-- The spans of the code are the letters that a rule matches. -/
theorem exists_span_iff :
    (∃ span ∈ (Scrubber.new patterns ctx).spans patterns text, span.Covers position) ↔
      ∃ start length, Found patterns ctx text start length ∧
        (charSpan text [] start length).Covers position := by
  simp only [Scrubber.spans, List.mem_append, List.mem_flatMap, mem_pushRe, or_assoc]
  constructor
  · rintro ⟨span, source, covers⟩
    rcases source with ⟨start, length, found, rfl⟩ | ⟨start, length, found, rfl⟩ |
      ⟨start, length, found, rfl⟩ | ⟨host, server, start, length, found, rfl⟩ |
      ⟨start, length, found, rfl⟩ | ⟨start, length, found, rfl⟩ | ⟨literal, rule, source⟩
    · exact ⟨start, length, .pattern (.inl found), covers⟩
    · exact ⟨start, length, .pattern (.inr (.inl found)), covers⟩
    · exact ⟨start, length, .pattern (.inr (.inr (.inl found))), covers⟩
    · exact ⟨start, length, .url (Option.mem_toList.mp server) found, covers⟩
    · exact ⟨start, length, .pattern (.inr (.inr (.inr (.inl found)))), covers⟩
    · exact ⟨start, length, .pattern (.inr (.inr (.inr (.inr found)))), covers⟩
    · rcases (mem_pushLiteral (needle_ne_nil rule)).mp source with ⟨start, taken, alone, rfl⟩
      exact ⟨start, _, .literal rule taken alone, covers⟩
  · rintro ⟨start, length, found, covers⟩
    cases found with
    | pattern found =>
        rcases found with found | found | found | found | found
        · exact ⟨_, .inl ⟨start, length, found, rfl⟩, covers⟩
        · exact ⟨_, .inr (.inl ⟨start, length, found, rfl⟩), covers⟩
        · exact ⟨_, .inr (.inr (.inl ⟨start, length, found, rfl⟩)), covers⟩
        · exact ⟨_, .inr (.inr (.inr (.inr (.inl ⟨start, length, found, rfl⟩)))), covers⟩
        · exact ⟨_, .inr (.inr (.inr (.inr (.inr (.inl ⟨start, length, found, rfl⟩))))), covers⟩
    | url server found =>
        have known := Option.mem_toList.mpr server
        exact ⟨_, .inr (.inr (.inr (.inl ⟨_, known, start, length, found, rfl⟩))), covers⟩
    | literal rule taken alone =>
        have pushed := (mem_pushLiteral (needle_ne_nil rule)).mpr ⟨start, taken, alone, rfl⟩
        exact ⟨_, .inr (.inr (.inr (.inr (.inr (.inr ⟨_, rule, pushed⟩))))), covers⟩

theorem charSpan_ordered {placeholder : Text} {length : ℕ} :
    (charSpan text placeholder start length).start ≤ (charSpan text placeholder start length).stop ∧
      (charSpan text placeholder start length).stop ≤ text.utf8.length := by
  have monotone : ∀ {few many : Text}, few <+: many → few.byteLen ≤ many.byteLen := by
    rintro few - ⟨rest, rfl⟩
    simp only [Text.byteLen, Text.utf8, List.flatMap_append, List.length_append]
    omega
  exact ⟨monotone (List.take_prefix_take_left (Nat.le_add_right _ _)),
    monotone (List.take_prefix _ _)⟩

theorem spans_ordered (patterns : Patterns) (ctx : ScrubContext) (text : Text) :
    ∀ span ∈ (Scrubber.new patterns ctx).spans patterns text,
    span.start ≤ span.stop ∧ span.stop ≤ text.utf8.length := by
  intro span source
  have found : ∃ placeholder start length, span = charSpan text placeholder start length := by
    simp only [Scrubber.spans, List.mem_append, List.mem_flatMap, mem_pushRe, or_assoc] at source
    rcases source with ⟨start, length, -, rfl⟩ | ⟨start, length, -, rfl⟩ |
      ⟨start, length, -, rfl⟩ | ⟨-, -, start, length, -, rfl⟩ |
      ⟨start, length, -, rfl⟩ | ⟨start, length, -, rfl⟩ | ⟨literal, rule, source⟩
    case inr.inr.inr.inr.inr.inr =>
      rcases (mem_pushLiteral (needle_ne_nil rule)).mp source with ⟨start, -, -, rfl⟩
      exact ⟨_, _, _, rfl⟩
    all_goals exact ⟨_, _, _, rfl⟩
  rcases found with ⟨placeholder, start, length, rfl⟩
  exact charSpan_ordered

/-- A byte is replaced when a rule matches it. -/
theorem exists_replaced_iff :
    (∃ piece ∈ replaced patterns ctx text, piece.Covers position) ↔
      ∃ start length, Found patterns ctx text start length ∧
        (charSpan text [] start length).Covers position := by
  have unions := unions_acceptSpans (spans_ordered patterns ctx text)
  rw [← exists_span_iff]
  constructor
  · rintro ⟨piece, piece_mem, covers⟩
    rcases ((unions.unions piece piece_mem).covers position).mp covers with
      ⟨span, span_mem, -, -, covers⟩
    exact ⟨span, span_mem, covers⟩
  · rintro ⟨span, span_mem, covers⟩
    have proper : span.Proper := Nat.lt_of_le_of_lt covers.1 covers.2
    rcases unions.all span span_mem proper with ⟨piece, piece_mem, within⟩
    exact ⟨piece, piece_mem, Nat.le_trans within.1 covers.1, Nat.lt_of_lt_of_le covers.2 within.2⟩

end Rules

/-- Every byte of every occurrence of a secret is replaced. -/
def SecretsReplaced (patterns : Patterns) (ctx : ScrubContext) (text : Text) : Prop :=
  ∀ needle wholeToken start, Secret ctx needle wholeToken →
    Occurs patterns needle wholeToken text start →
    ∀ position, (charSpan text [] start needle.length).Covers position →
      ∃ piece ∈ replaced patterns ctx text, piece.Covers position

/-- The occurrences of secrets that the search passes over lie in the matches of other rules. -/
def SkippedFound (patterns : Patterns) (ctx : ScrubContext) (text : Text) : Prop :=
  ∀ needle wholeToken start, Secret ctx needle wholeToken →
    Occurs patterns needle wholeToken text start →
    ¬(patterns.compiles needle wholeToken ∧ Taken patterns needle wholeToken text 0 start) →
    ∀ position, (charSpan text [] start needle.length).Covers position →
      ∃ start length, Found patterns ctx text start length ∧
        (charSpan text [] start length).Covers position

theorem secretsReplaced_iff {patterns : Patterns} (folds : patterns.FoldsWords)
    (ctx : ScrubContext) (text : Text) :
    SecretsReplaced patterns ctx text ↔ SkippedFound patterns ctx text := by
  unfold SecretsReplaced
  simp only [exists_replaced_iff]
  constructor
  · intro covered needle wholeToken start secret occurs _
    exact covered needle wholeToken start secret occurs
  · intro condition needle wholeToken start secret occurs position covers
    by_cases taken : patterns.compiles needle wholeToken ∧
      Taken patterns needle wholeToken text 0 start
    · rcases exists_literal secret taken.1 with ⟨literal, rule, rfl, ignores, whole⟩
      refine ⟨start, _, .literal rule (ignores ▸ taken.2) ?_, covers⟩
      intro whole_token
      rw [standsAlone_excerpt folds taken.2.starts]
      exact occurs.2 (whole ▸ whole_token)
    · exact condition needle wholeToken start secret occurs taken position covers

/-- What the regular expressions decide on an ASCII text without a long run, an address, a path
or a tag. -/
def plainPatterns : Patterns where
  fold := Char.toLower
  isAlphanumeric := Char.isAlphanum
  compiles _ _ := true
  bearer _ := []
  tokenRun _ := []
  base64Run _ := []
  url _ := []
  home _ := []
  battletag _ := []

theorem ascii_fold : ∀ code < 128,
    (Char.ofNat code).toLower.isAlphanum = (Char.ofNat code).isAlphanum ∧
      ((Char.ofNat code).toLower = '_' → Char.ofNat code = '_') := by
  decide

theorem toLower_fold (letter : Char) : letter.toLower.isAlphanum = letter.isAlphanum ∧
    (letter.toLower = '_' → letter = '_') := by
  rcases Nat.lt_or_ge letter.toNat 128 with ascii | above
  · have found := ascii_fold letter.toNat ascii
    rwa [Char.ofNat_toNat] at found
  · rw [Rust.toLower_of_le above]
    exact ⟨rfl, id⟩

theorem plainPatterns_folds : plainPatterns.FoldsWords where
  alphanumeric letter other same := by
    have same : letter.toLower = other.toLower := same
    change letter.isAlphanum = other.isAlphanum
    rw [← (toLower_fold letter).1, same, (toLower_fold other).1]
  underscore letter same := (toLower_fold letter).2 same

theorem name_in_text_replaced :
    SecretsReplaced plainPatterns ⟨none, none, none, none, none, none, ["jo".toList]⟩
        "jo joined".toList ↔
      SkippedFound plainPatterns ⟨none, none, none, none, none, none, ["jo".toList]⟩
        "jo joined".toList :=
  secretsReplaced_iff plainPatterns_folds _ _

/-- The first match is part of a longer word and is dropped, and the search goes on behind it,
inside the name. -/
theorem name_in_dropped_match :
    scrubText plainPatterns ⟨none, none, none, none, none, none, ["jo jo".toList]⟩
        "xjo jo jo".toList = Text.utf8 "xjo jo jo".toList ∧
      ¬SecretsReplaced plainPatterns ⟨none, none, none, none, none, none, ["jo jo".toList]⟩
        "xjo jo jo".toList := by
  have nothing : (Scrubber.new plainPatterns
      ⟨none, none, none, none, none, none, ["jo jo".toList]⟩).spans plainPatterns
        "xjo jo jo".toList = [] := by
    decide
  constructor
  · rw [scrubText, nothing]
    simp [applySpans, acceptSpans, sortSpans, render]
  · intro covered
    have secret : Secret ⟨none, none, none, none, none, none, ["jo jo".toList]⟩ "jo jo".toList
        true := ⟨by decide, "jo jo".toList, by decide, by decide⟩
    have occurs : Occurs plainPatterns "jo jo".toList true "xjo jo jo".toList 4 :=
      ⟨by decide, by decide⟩
    rcases covered _ _ _ secret occurs 4 (by decide) with ⟨piece, piece_mem, -⟩
    rw [replaced, nothing] at piece_mem
    simp [acceptSpans, sortSpans] at piece_mem

end ScuffedCrew.Report
