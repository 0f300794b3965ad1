import Skirmish.CommandLine.Server
import Skirmish.Proofs.Failing
import Skirmish.Proofs.Lexing
/-!
# The two scans of a command line

The options of a server are read from left to right, each with the word after it as its value
(`Walk`, `Takes`). The file with settings is found by another scan, which looks for the first
`--config` among all words and does not know which of them are values. So the two part ways where
that `--config` is the value of another option, or the name of the program, and nowhere else
(`Misplaced`). From the settings they start with, the options lead to those that the last of each
kind gives (`Outcome`).
-/

namespace Skirmish.CommandLine

open Text (IsNumeral)

/-! ## The scan from left to right -/

/-- Words that are passed before the next one can be an option: options with their values, and
words that are no option. -/
inductive Walk : List String → Prop where
  | done : Walk []
  | option {o : ServerOption} {value : String} {rest : List String} :
    Walk rest → Walk (o.flag :: value :: rest)
  | other {word : String} {rest : List String} :
    (∀ o : ServerOption, word ≠ o.flag) → Walk rest → Walk (word :: rest)

/-- An option in its place and the word after it. -/
def Takes (args : List String) (o : ServerOption) (value : String) : Prop :=
  ∃ before after, args = before ++ o.flag :: value :: after ∧ Walk before

/-- The value of the last option of its kind, or that there is none. -/
def Last (args : List String) (o : ServerOption) : Option String → Prop
  | some value => ∃ before after, args = before ++ o.flag :: value :: after ∧ Walk before ∧
      ∀ value, ¬ Takes after o value
  | none => ∀ value, ¬ Takes args o value

theorem flag_injective {o o' : ServerOption} (h : o.flag = o'.flag) : o = o' := by
  revert h
  cases o <;> cases o' <;> decide

theorem ofFlag?_flag (o : ServerOption) : ServerOption.ofFlag? o.flag = some o := by
  cases o <;> decide

theorem ofFlag?_eq_none_iff {word : String} :
    ServerOption.ofFlag? word = none ↔ ∀ o : ServerOption, word ≠ o.flag := by
  rw [ServerOption.ofFlag?, List.find?_eq_none]
  refine ⟨fun h o ho => ?_, fun h o _ ho => h o (of_decide_eq_true ho).symm⟩
  exact h o (by cases o <;> decide) (decide_eq_true ho.symm)

theorem flag_of_ofFlag? {word : String} {o : ServerOption}
    (h : ServerOption.ofFlag? word = some o) : word = o.flag := by
  rw [ServerOption.ofFlag?] at h
  simpa [eq_comm] using List.find?_some h

theorem serverOptions_option (o : ServerOption) (value : String) (rest : List String) :
    serverOptions (o.flag :: value :: rest) = (o, value) :: serverOptions rest := by
  rw [serverOptions, ofFlag?_flag]

theorem serverOptions_other {word : String} (h : ∀ o : ServerOption, word ≠ o.flag)
    (rest : List String) : serverOptions (word :: rest) = serverOptions rest := by
  cases rest with
  | nil => rfl
  | cons value rest => rw [serverOptions, ofFlag?_eq_none_iff.mpr h]

/-- The scan goes on after a walk as if nothing had been there. -/
theorem Walk.serverOptions_append {before : List String} (h : Walk before) (rest : List String) :
    serverOptions (before ++ rest) = serverOptions before ++ serverOptions rest := by
  induction h with
  | done => rfl
  | option _ ih =>
    simp only [List.cons_append, serverOptions_option, ih]
  | other hword _ ih =>
    simp only [List.cons_append, serverOptions_other hword, ih]

/-- Every option that the scan finds is in its place. -/
theorem exists_walk_of_serverOptions {args : List String}
    {earlier later : List (ServerOption × String)} {o : ServerOption} {value : String}
    (h : serverOptions args = earlier ++ (o, value) :: later) :
    ∃ before after, args = before ++ o.flag :: value :: after ∧ Walk before ∧
      serverOptions after = later := by
  -- along the recursion of the loop: a step takes two words, or passes over one
  fun_induction serverOptions args generalizing earlier with
  | case1 word value' rest o' hword ih =>
    obtain rfl := flag_of_ofFlag? hword
    cases earlier with
    | nil =>
      rw [List.nil_append, List.cons.injEq, Prod.mk.injEq] at h
      obtain ⟨⟨rfl, rfl⟩, rfl⟩ := h
      exact ⟨[], rest, rfl, .done, rfl⟩
    | cons first earlier =>
      obtain ⟨before, after, rfl, hwalk, hlater⟩ := ih (List.cons.inj h).2
      exact ⟨_ :: _ :: before, after, rfl, .option hwalk, hlater⟩
  | case2 word value' rest hword ih =>
    -- a word that is no option stands before the flag wherever the flag is
    obtain ⟨before, after, hrest, hwalk, hlater⟩ := ih h
    exact ⟨word :: before, after, by rw [hrest]; rfl, .other (ofFlag?_eq_none_iff.mp hword) hwalk,
      hlater⟩
  | case3 => simp at h

/-- **The scan finds the options that are in their place, and no others.** -/
theorem mem_serverOptions_iff {args : List String} {o : ServerOption} {value : String} :
    (o, value) ∈ serverOptions args ↔ Takes args o value := by
  refine ⟨fun h => ?_, fun ⟨before, after, hargs, hwalk⟩ => ?_⟩
  · obtain ⟨earlier, later, hoptions⟩ := List.append_of_mem h
    obtain ⟨before, after, hargs, hwalk, _⟩ := exists_walk_of_serverOptions hoptions
    exact ⟨before, after, hargs, hwalk⟩
  · rw [hargs, hwalk.serverOptions_append, serverOptions_option]
    exact List.mem_append_right _ List.mem_cons_self

/-- The value that the last option of a kind gives. -/
def lastValue (o : ServerOption) : List (ServerOption × String) → Option String
  | [] => none
  | (o', value) :: rest => (lastValue o rest).or (if o' = o then some value else none)

theorem lastValue_eq_none_iff {o : ServerOption} {options : List (ServerOption × String)} :
    lastValue o options = none ↔ ∀ value, (o, value) ∉ options := by
  induction options with
  | nil => simp [lastValue]
  | cons option rest ih =>
    obtain ⟨o', value⟩ := option
    rw [lastValue, Option.or_eq_none_iff, ih]
    by_cases ho : o' = o
    · refine ⟨fun h => ?_, fun h => absurd List.mem_cons_self (ho ▸ h value)⟩
      simp [ho] at h
    · simp [ho, Ne.symm ho]

theorem lastValue_eq_some_iff {o : ServerOption} {options : List (ServerOption × String)}
    {value : String} :
    lastValue o options = some value ↔
      ∃ earlier later, options = earlier ++ (o, value) :: later ∧
        ∀ value, (o, value) ∉ later := by
  -- from the front, while the last value counts: the value at hand stands only if the rest has none
  induction options with
  | nil => simp [lastValue]
  | cons option rest ih =>
    obtain ⟨o', value'⟩ := option
    rw [lastValue, Option.or_eq_some_iff, ih, lastValue_eq_none_iff]
    refine ⟨fun h => ?_, fun ⟨earlier, later, hoptions, hlater⟩ => ?_⟩
    · rcases h with ⟨earlier, later, hrest, hlater⟩ | ⟨hrest, hvalue⟩
      · exact ⟨_ :: earlier, later, by rw [hrest]; rfl, hlater⟩
      · split at hvalue
        · rename_i ho
          obtain rfl := ho
          obtain rfl := Option.some.inj hvalue
          exact ⟨[], rest, rfl, hrest⟩
        · cases hvalue
    · cases earlier with
      | nil =>
        rw [List.nil_append, List.cons.injEq, Prod.mk.injEq] at hoptions
        obtain ⟨⟨rfl, rfl⟩, rfl⟩ := hoptions
        exact .inr ⟨hlater, if_pos rfl⟩
      | cons first earlier => exact .inl ⟨earlier, later, (List.cons.inj hoptions).2, hlater⟩

theorem last_iff {args : List String} {o : ServerOption} {value : Option String} :
    Last args o value ↔ lastValue o (serverOptions args) = value := by
  cases value with
  | none =>
    rw [lastValue_eq_none_iff]
    exact forall_congr' fun value => not_congr mem_serverOptions_iff.symm
  | some value =>
    rw [lastValue_eq_some_iff]
    refine ⟨fun ⟨before, after, hargs, hwalk, hafter⟩ => ?_,
      fun ⟨earlier, later, hoptions, hlater⟩ => ?_⟩
    · rw [hargs, hwalk.serverOptions_append, serverOptions_option]
      exact ⟨serverOptions before, serverOptions after, rfl,
        fun value h => hafter value (mem_serverOptions_iff.mp h)⟩
    · obtain ⟨before, after, hargs, hwalk, rfl⟩ := exists_walk_of_serverOptions hoptions
      exact ⟨before, after, hargs, hwalk,
        fun value h => hlater value (mem_serverOptions_iff.mpr h)⟩

/-! ## The scan for the file -/

/-- The settings are those of a file before any option is applied, whatever the file holds. -/
def Reads (words : List String) (path : String) : Prop :=
  ∀ readFile, baseSettings readFile words = settingsOfFile readFile path

/-- The two scans agree: a file is read exactly if the scan from left to right takes a `--config`,
and what names the file is a `--config` in its place, the first of all. -/
structure ScansAgree (words : List String) : Prop where
  reads_iff : (∃ path, Reads words path) ↔ ∃ value, Takes words.tail .config value
  place : ∀ path, Reads words path → ∃ program before after,
    words = program :: (before ++ ServerOption.config.flag :: path :: after) ∧ Walk before ∧
      ServerOption.config.flag ∉ program :: before

/-- The first `--config`, with a word after it, is not in the place of an option: it is the name of
the program or the value of another option. -/
inductive Misplaced : List String → Prop where
  | program {path : String} {rest : List String} :
    Misplaced (ServerOption.config.flag :: path :: rest)
  | value {program path : String} {before after : List String} {o : ServerOption} :
    o ≠ .config → Walk before → ServerOption.config.flag ∉ program :: before →
    Misplaced (program :: (before ++ o.flag :: ServerOption.config.flag :: path :: after))

theorem configPath?_flag (rest : List String) :
    configPath? (ServerOption.config.flag :: rest) = rest.head? := by
  cases rest <;> rfl

theorem configPath?_other {word : String} (h : word ≠ ServerOption.config.flag)
    (rest : List String) : configPath? (word :: rest) = configPath? rest := by
  unfold configPath?
  rw [List.dropWhile_cons_of_pos (by simpa using h)]

/-- The word after the first `--config` names the file. -/
theorem configPath?_eq_some_iff {words : List String} {path : String} :
    configPath? words = some path ↔
      ∃ before after, words = before ++ ServerOption.config.flag :: path :: after ∧
        ServerOption.config.flag ∉ before := by
  induction words with
  | nil => simp [configPath?]
  | cons word rest ih =>
    -- the scan stops at the first flag, and here the word at hand is it
    by_cases hword : word = ServerOption.config.flag
    · rw [hword, configPath?_flag]
      refine ⟨fun h => ?_, fun ⟨before, after, hrest, hbefore⟩ => ?_⟩
      · cases rest with
        | nil => cases h
        | cons first after =>
          obtain rfl := Option.some.inj h
          exact ⟨[], after, rfl, List.not_mem_nil⟩
      · cases before with
        | nil =>
          rw [(List.cons.inj hrest).2]
          rfl
        | cons first before =>
          rw [(List.cons.inj hrest).1] at hbefore
          exact absurd List.mem_cons_self hbefore
    · -- otherwise the word stands before the flag, which is found in the rest
      rw [configPath?_other hword, ih]
      refine ⟨fun ⟨before, after, hrest, hbefore⟩ => ?_, fun ⟨before, after, hrest, hbefore⟩ => ?_⟩
      · refine ⟨word :: before, after, by rw [hrest]; rfl, ?_⟩
        exact List.not_mem_cons_of_ne_of_not_mem (Ne.symm hword) hbefore
      · cases before with
        | nil => exact absurd (List.cons.inj hrest).1 hword
        | cons first before =>
          exact ⟨before, after, (List.cons.inj hrest).2, fun h => hbefore (List.mem_cons_of_mem _ h)⟩

/-- If some `--config` has a word after it, so has the first. -/
theorem exists_configPath? (before : List String) (value : String) (after : List String) :
    ∃ path, configPath? (before ++ ServerOption.config.flag :: value :: after) = some path := by
  induction before with
  | nil => exact ⟨value, rfl⟩
  | cons word rest ih =>
    by_cases hword : word = ServerOption.config.flag
    · rw [List.cons_append, hword, configPath?_flag]
      exact ⟨_, List.head?_eq_some_head (by simp)⟩
    · rw [List.cons_append, configPath?_other hword]
      exact ih

/-- Which file is read shows when it cannot be. -/
theorem reads_iff_configPath? {words : List String} {path : String} :
    Reads words path ↔ configPath? words = some path := by
  refine ⟨fun h => ?_, fun h readFile => by rw [baseSettings, h]⟩
  have hmissing := h fun _ => none
  unfold baseSettings at hmissing
  split at hmissing
  · rename_i path' hpath'
    rw [hpath', (Fault.unreadableFile.inj (Except.error.inj hmissing))]
  · cases hmissing

/-! ## Where the scans part -/

/-- A word is the place of an option unless the word before it is an option in its place. -/
theorem walk_or_value (before : List String) :
    Walk before ∨ ∃ earlier o, before = earlier ++ [ServerOption.flag o] ∧ Walk earlier := by
  fun_induction serverOptions before with
  | case1 word value rest o hword ih =>
    obtain rfl := flag_of_ofFlag? hword
    rcases ih with hwalk | ⟨earlier, o', rfl, hwalk⟩
    · exact .inl (.option hwalk)
    · exact .inr ⟨_ :: _ :: earlier, o', rfl, .option hwalk⟩
  | case2 word value rest hword ih =>
    have hother := ofFlag?_eq_none_iff.mp hword
    rcases ih with hwalk | ⟨earlier, o', hrest, hwalk⟩
    · exact .inl (.other hother hwalk)
    · exact .inr ⟨word :: earlier, o', by rw [hrest]; rfl, .other hother hwalk⟩
  -- the loop is done with less than two words left: one that is an option has no value here
  | case3 before hshort =>
    match before with
    | [] => exact .inl .done
    | [word] =>
      cases hword : ServerOption.ofFlag? word with
      | none => exact .inl (.other (ofFlag?_eq_none_iff.mp hword) .done)
      | some o =>
        obtain rfl := flag_of_ofFlag? hword
        exact .inr ⟨[], o, rfl, .done⟩
    | word :: value :: rest => exact absurd rfl (hshort word value rest)

theorem Walk.of_append {before rest : List String} (h : Walk before) (h' : Walk (before ++ rest)) :
    Walk rest := by
  -- both walks are by the same words, so the longer one begins with the steps of the shorter one
  induction h with
  | done => exact h'
  -- the words are generalized since a walk over a sum of lists cannot be taken apart
  | @option o value earlier _ ih =>
    generalize hall : o.flag :: value :: earlier ++ rest = all at h'
    cases h' with
    | done => cases hall
    | option h' =>
      obtain rfl := (List.cons.inj (List.cons.inj hall).2).2
      exact ih h'
    | other hword _ => exact absurd (List.cons.inj hall).1.symm (hword o)
  | @other word earlier hword _ ih =>
    generalize hall : word :: earlier ++ rest = all at h'
    cases h' with
    | done => cases hall
    | option _ => exact absurd (List.cons.inj hall).1 (hword _)
    | other _ h' =>
      obtain rfl := (List.cons.inj hall).2
      exact ih h'

/-- After an option comes its value. -/
theorem Walk.not_flag {before : List String} (h : Walk before) (o : ServerOption) :
    ¬ Walk (before ++ [o.flag]) := by
  intro h'
  have hflag := h.of_append h'
  generalize hlast : [o.flag] = last at hflag
  cases hflag with
  | done => cases hlast
  | option _ => simp at hlast
  | other hword _ => exact hword o (List.cons.inj hlast).1.symm

theorem eq_of_first {α : Type} {a : α} {xs ys zs ws : List α} (hxs : a ∉ xs) (hys : a ∉ ys)
    (h : xs ++ a :: zs = ys ++ a :: ws) : xs = ys := by
  induction xs generalizing ys with
  | nil =>
    cases ys with
    | nil => rfl
    | cons y ys =>
      obtain rfl := (List.cons.inj h).1
      exact absurd List.mem_cons_self hys
  | cons x xs ih =>
    cases ys with
    | nil =>
      obtain rfl := (List.cons.inj h).1
      exact absurd List.mem_cons_self hxs
    | cons y ys =>
      obtain ⟨rfl, htail⟩ := List.cons.inj h
      rw [ih (fun hx => hxs (List.mem_cons_of_mem _ hx))
        (fun hy => hys (List.mem_cons_of_mem _ hy)) htail]

theorem not_misplaced_of_scansAgree {words : List String} (h : ScansAgree words) :
    ¬ Misplaced words := by
  intro hmisplaced
  cases hmisplaced with
  | @program path rest =>
    -- the name of the program is a flag: the scan reads what follows, and the loop does not
    have hreads := reads_iff_configPath?.mpr (configPath?_flag (path :: rest))
    obtain ⟨program, before, after, hwords, _, hnone⟩ := h.place path hreads
    rw [(List.cons.inj hwords).1] at hnone
    exact hnone List.mem_cons_self
  | @value program path before after o ho hwalk hnone =>
    -- the flag is the value of an option: no flag stands before it, so the scan stops here
    have hnone' : ServerOption.config.flag ∉ program :: (before ++ [o.flag]) := by
      rw [← List.cons_append, List.mem_append, List.mem_singleton]
      exact not_or.mpr ⟨hnone, fun hflag => ho (flag_injective hflag).symm⟩
    have hsplit : program :: (before ++ o.flag :: ServerOption.config.flag :: path :: after) =
        program :: (before ++ [o.flag]) ++ ServerOption.config.flag :: path :: after := by simp
    have hreads := reads_iff_configPath?.mpr
      (configPath?_eq_some_iff.mpr ⟨_, after, hsplit, hnone'⟩)
    obtain ⟨program', before', after', hwords, hwalk', hnone''⟩ := h.place path hreads
    have hfront := eq_of_first hnone' hnone'' (hsplit.symm.trans hwords)
    rw [← (List.cons.inj hfront).2] at hwalk'
    exact hwalk.not_flag o hwalk'

theorem scansAgree_of_not_misplaced {words : List String} (h : ¬ Misplaced words) :
    ScansAgree words := by
  have hplace : ∀ path, Reads words path → ∃ program before after,
      words = program :: (before ++ ServerOption.config.flag :: path :: after) ∧ Walk before ∧
        ServerOption.config.flag ∉ program :: before := by
    intro path hreads
    obtain ⟨front, after, rfl, hnone⟩ := configPath?_eq_some_iff.mp (reads_iff_configPath?.mp hreads)
    cases front with
    | nil => exact absurd .program h
    | cons program before =>
      -- either the loop stands before the flag, or the word before is an option that takes it
      rcases walk_or_value before with hwalk | ⟨earlier, o, rfl, hwalk⟩
      · exact ⟨program, before, after, rfl, hwalk, hnone⟩
      · rw [← List.cons_append, List.mem_append, List.mem_singleton, not_or] at hnone
        have ho : o ≠ .config := fun ho => hnone.2 (by rw [ho])
        refine absurd ?_ h
        simpa using Misplaced.value ho hwalk hnone.1
  refine ⟨⟨fun ⟨path, hreads⟩ => ?_, fun ⟨value, before, after, hargs, _⟩ => ?_⟩, hplace⟩
  · obtain ⟨program, before, after, rfl, hwalk, _⟩ := hplace path hreads
    exact ⟨path, before, after, rfl, hwalk⟩
  · cases words with
    | nil => simp at hargs
    | cons program args =>
      obtain ⟨path, hpath⟩ := exists_configPath? (program :: before) value after
      rw [List.tail_cons] at hargs
      rw [List.cons_append, ← hargs] at hpath
      exact ⟨path, reads_iff_configPath?.mpr hpath⟩

/-! ## What the options come to -/

namespace ServerOption

/-- The bound of an option that is a number. -/
def bound? : ServerOption → Option Nat
  | tickRate | broadcastRate => some UInt32.size
  | seed => some UInt64.size
  | config | tcpAddress | udpAddress => none

/-- A value that an option can have. -/
def Parses (o : ServerOption) (value : String) : Prop :=
  ∀ bound ∈ o.bound?, ∃ n < bound, IsNumeral 10 value.toList n

/-- The settings are what a value of the option says. -/
def Shows (o : ServerOption) (value : String) (s : Settings) : Prop :=
  match o with
  | config => True
  | tcpAddress => s.tcpAddress = value
  | udpAddress => s.udpAddress = value
  | tickRate => IsNumeral 10 value.toList s.tickRate.toNat
  | broadcastRate => IsNumeral 10 value.toList s.broadcastRate.toNat
  | seed => ∃ n, s.game.seed = some n ∧ IsNumeral 10 value.toList n.toNat

/-- Two settings agree in what an option is about. -/
def Same (o : ServerOption) (s s' : Settings) : Prop :=
  match o with
  | config => True
  | tcpAddress => s.tcpAddress = s'.tcpAddress
  | udpAddress => s.udpAddress = s'.udpAddress
  | tickRate => s.tickRate = s'.tickRate
  | broadcastRate => s.broadcastRate = s'.broadcastRate
  | seed => s.game.seed = s'.game.seed

end ServerOption

/-- Settings without what the options are about. -/
def unset (s : Settings) : Settings :=
  { s with
    tcpAddress := ""
    udpAddress := ""
    tickRate := 0
    broadcastRate := 0
    game := { s.game with seed := none } }

/-- What the last option of each kind says, and for the rest what there was before. -/
structure Outcome (args : List String) (base s : Settings) : Prop where
  last : ∀ o value, Last args o (some value) → o.Shows value s
  kept : ∀ o, Last args o none → o.Same s base
  rest : unset s = unset base

theorem number_eq_ok_iff {flag value : String} {bound n : Nat} :
    number flag bound value = .ok n ↔ IsNumeral 10 value.toList n ∧ n < bound := by
  rw [← Text.readBelow_eq_some_iff, number]
  cases Text.readBelow bound 10 value.toList with
  | none => simp
  | some m => simp

namespace ServerOption

theorem Same.refl (o : ServerOption) (s : Settings) : o.Same s s := by
  cases o <;> trivial

theorem Same.symm {o : ServerOption} {s s' : Settings} (h : o.Same s s') : o.Same s' s := by
  cases o <;> first | trivial | exact Eq.symm h

theorem Same.trans {o : ServerOption} {s s' s'' : Settings} (h : o.Same s s')
    (h' : o.Same s' s'') : o.Same s s'' := by
  cases o <;> first | trivial | exact Eq.trans h h'

theorem Shows.of_same {o : ServerOption} {value : String} {s s' : Settings} (h : o.Shows value s)
    (hsame : o.Same s' s) : o.Shows value s' := by
  cases o <;> simp only [Same, Shows] at h hsame ⊢ <;> rwa [hsame]

/-- A value says only one thing. -/
theorem Shows.same {o : ServerOption} {value : String} {s s' : Settings} (h : o.Shows value s)
    (h' : o.Shows value s') : o.Same s s' := by
  have hread : ∀ {n n' : Nat}, IsNumeral 10 value.toList n → IsNumeral 10 value.toList n' →
      n = n' := by
    intro n n' hn hn'
    rw [← Text.readNumeral_eq_some_iff] at hn hn'
    exact Option.some.inj (hn.symm.trans hn')
  cases o with
  | config => trivial
  | tcpAddress | udpAddress => exact Eq.trans h (Eq.symm h')
  | tickRate | broadcastRate => exact UInt32.toNat_inj.mp (hread h h')
  | seed =>
    obtain ⟨n, hseed, hn⟩ := h
    obtain ⟨n', hseed', hn'⟩ := h'
    obtain rfl := UInt64.toNat_inj.mp (hread hn hn')
    exact hseed.trans hseed'.symm

theorem eq_of_same {s s' : Settings} (h : ∀ o : ServerOption, o.Same s s')
    (hrest : unset s = unset s') : s = s' := by
  have htcp : s.tcpAddress = s'.tcpAddress := h .tcpAddress
  have hudp : s.udpAddress = s'.udpAddress := h .udpAddress
  have htick : s.tickRate = s'.tickRate := h .tickRate
  have hbroadcast : s.broadcastRate = s'.broadcastRate := h .broadcastRate
  have hseed : s.game.seed = s'.game.seed := h .seed
  have hback : ∀ s : Settings, s = { unset s with
      tcpAddress := s.tcpAddress
      udpAddress := s.udpAddress
      tickRate := s.tickRate
      broadcastRate := s.broadcastRate
      game := { (unset s).game with seed := s.game.seed } } := fun _ => rfl
  rw [hback s, hback s', hrest, htcp, hudp, htick, hbroadcast, hseed]

/-- **One option sets what it is about to what its value says, and nothing else.** -/
theorem apply_eq_ok {o : ServerOption} {value : String} {s s' : Settings}
    (h : o.apply s value = .ok s') :
    o.Parses value ∧ o.Shows value s' ∧ (∀ o' ≠ o, ServerOption.Same o' s' s) ∧
      unset s' = unset s := by
  -- settings that take any text have no bound, and a number is checked against that of its own
  have hplain : ∀ {o : ServerOption}, o.bound? = none → o.Parses value :=
    fun hnone bound hbound => absurd (hnone.symm.trans hbound) nofun
  have hnumber : ∀ {o : ServerOption} {n bound : Nat}, o.bound? = some bound →
      IsNumeral 10 value.toList n → n < bound → o.Parses value := by
    intro o n bound hbound hn hlt bound' hbound'
    obtain rfl := Option.some.inj (hbound.symm.trans hbound')
    exact ⟨n, hlt, hn⟩
  cases o with
  | config | tcpAddress | udpAddress =>
    obtain rfl := Except.ok.inj h
    refine ⟨hplain rfl, by trivial, fun o' ho => ?_, rfl⟩
    cases o' <;> first | exact absurd rfl ho | trivial
  | tickRate | broadcastRate =>
    obtain ⟨n, hread, rfl⟩ := map_eq_ok_iff.mp h
    obtain ⟨hn, hlt⟩ := number_eq_ok_iff.mp hread
    refine ⟨hnumber rfl hn hlt, ?_, fun o' ho => ?_, rfl⟩
    · rwa [Shows, UInt32.toNat_ofNat_of_lt' hlt]
    · cases o' <;> first | exact absurd rfl ho | trivial
  | seed =>
    obtain ⟨n, hread, rfl⟩ := map_eq_ok_iff.mp h
    obtain ⟨hn, hlt⟩ := number_eq_ok_iff.mp hread
    refine ⟨hnumber rfl hn hlt, ⟨UInt64.ofNat n, rfl, ?_⟩, fun o' ho => ?_, rfl⟩
    · rwa [UInt64.toNat_ofNat_of_lt' hlt]
    · cases o' <;> first | exact absurd rfl ho | trivial

theorem exists_apply {o : ServerOption} {value : String} (s : Settings) (h : o.Parses value) :
    ∃ s', o.apply s value = .ok s' := by
  have hnumber : ∀ {α : Type} {bound : Nat} (f : Nat → α), bound ∈ o.bound? →
      ∃ a, (number o.flag bound value).map f = .ok a := by
    intro α bound f hbound
    obtain ⟨n, hlt, hn⟩ := h bound hbound
    exact ⟨f n, by rw [number_eq_ok_iff.mpr ⟨hn, hlt⟩]; rfl⟩
  cases o with
  | config | tcpAddress | udpAddress => exact ⟨_, rfl⟩
  | tickRate | broadcastRate | seed => exact hnumber _ rfl

end ServerOption

/-! ## All the options -/

theorem applyAll_cons_eq_ok {base s : Settings} {o : ServerOption} {value : String}
    {rest : List (ServerOption × String)} (h : applyAll base ((o, value) :: rest) = .ok s) :
    ∃ mid, o.apply base value = .ok mid ∧ applyAll mid rest = .ok s := by
  rw [applyAll] at h
  split at h
  · rename_i mid hmid
    exact ⟨mid, hmid, h⟩
  · cases h

/-- **A run over the options leaves what the last of each kind says.** -/
theorem applyAll_eq_ok {base s : Settings} {options : List (ServerOption × String)}
    (h : applyAll base options = .ok s) :
    (∀ o value, (o, value) ∈ options → o.Parses value) ∧
      (∀ o value, lastValue o options = some value → o.Shows value s) ∧
      (∀ o, lastValue o options = none → o.Same s base) ∧ unset s = unset base := by
  induction options generalizing base with
  | nil =>
    obtain rfl := Except.ok.inj h
    exact ⟨by simp, nofun, fun o _ => .refl o base, rfl⟩
  | cons option rest ih =>
    obtain ⟨o, value⟩ := option
    obtain ⟨mid, hmid, hrest⟩ := applyAll_cons_eq_ok h
    obtain ⟨hparses, hshows, hsame, hunset⟩ := ServerOption.apply_eq_ok hmid
    obtain ⟨hparses', hshows', hsame', hunset'⟩ := ih hrest
    -- the value at hand is overwritten by the rest, unless the rest does not name the option
    refine ⟨fun o' value' hmem => ?_, fun o' value' hlast => ?_, fun o' hlast => ?_,
      hunset'.trans hunset⟩
    · rcases List.mem_cons.mp hmem with hmem | hmem
      · obtain ⟨rfl, rfl⟩ := Prod.mk.inj hmem
        exact hparses
      · exact hparses' o' value' hmem
    · rcases Option.or_eq_some_iff.mp hlast with hlast | ⟨hnone, hvalue⟩
      · exact hshows' o' value' hlast
      · split at hvalue
        · rename_i ho
          obtain rfl := ho
          obtain rfl := Option.some.inj hvalue
          exact hshows.of_same (hsame' o hnone)
        · cases hvalue
    · obtain ⟨hnone, hvalue⟩ := Option.or_eq_none_iff.mp hlast
      have ho : o' ≠ o := by
        rintro rfl
        simp at hvalue
      exact (hsame' o' hnone).trans (hsame o' ho)

theorem exists_applyAll {options : List (ServerOption × String)}
    (h : ∀ o value, (o, value) ∈ options → o.Parses value) (base : Settings) :
    ∃ s, applyAll base options = .ok s := by
  induction options generalizing base with
  | nil => exact ⟨base, rfl⟩
  | cons option rest ih =>
    obtain ⟨o, value⟩ := option
    obtain ⟨mid, hmid⟩ := ServerOption.exists_apply base (h o value List.mem_cons_self)
    obtain ⟨s, hs⟩ := ih (fun o value hmem => h o value (List.mem_cons_of_mem _ hmem)) mid
    refine ⟨s, ?_⟩
    rw [applyAll, hmid]
    exact hs

theorem outcome_of_applyAll {args : List String} {base s : Settings}
    (h : applyAll base (serverOptions args) = .ok s) : Outcome args base s := by
  obtain ⟨_, hshows, hsame, hrest⟩ := applyAll_eq_ok h
  exact ⟨fun o value hlast => hshows o value (last_iff.mp hlast),
    fun o hlast => hsame o (last_iff.mp hlast), hrest⟩

theorem Outcome.unique {args : List String} {base s s' : Settings} (h : Outcome args base s)
    (h' : Outcome args base s') : s = s' := by
  refine ServerOption.eq_of_same (fun o => ?_) (h.rest.trans h'.rest.symm)
  cases hlast : lastValue o (serverOptions args) with
  | none => exact (h.kept o (last_iff.mpr hlast)).trans (h'.kept o (last_iff.mpr hlast)).symm
  | some value =>
    exact (h.last o value (last_iff.mpr hlast)).same (h'.last o value (last_iff.mpr hlast))

theorem applyAll_eq_ok_iff {args : List String} {base s : Settings} :
    applyAll base (serverOptions args) = .ok s ↔
      (∀ o value, Takes args o value → o.Parses value) ∧ Outcome args base s := by
  refine ⟨fun h => ⟨fun o value htakes => ?_, outcome_of_applyAll h⟩, fun ⟨hparses, houtcome⟩ => ?_⟩
  · exact (applyAll_eq_ok h).1 o value (mem_serverOptions_iff.mpr htakes)
  · obtain ⟨s', hs'⟩ := exists_applyAll
      (fun o value hmem => hparses o value (mem_serverOptions_iff.mp hmem)) base
    rw [hs', houtcome.unique (outcome_of_applyAll hs')]

theorem validated_eq_ok_iff {s s' : Settings} :
    validated s = .ok s' ↔ s = s' ∧ s.validate = .ok () := by
  unfold validated
  cases s.validate with
  | ok => simp
  | error fault => simp

/-- **The scans agree unless the first `--config` with a word after it is out of place, and what is
returned is what the last options say.** -/
theorem serverSettings_scans (words : List String) :
    (ScansAgree words ↔ ¬ Misplaced words) ∧
    ∀ (readFile : String → Option String) (s : Settings),
      serverSettings readFile words = .ok s ↔
        ∃ base, baseSettings readFile words = .ok base ∧
          (∀ o value, Takes words.tail o value → o.Parses value) ∧
          Outcome words.tail base s ∧ s.validate = .ok () := by
  refine ⟨⟨not_misplaced_of_scansAgree, scansAgree_of_not_misplaced⟩, fun readFile s => ?_⟩
  unfold serverSettings
  cases baseSettings readFile words with
  | error fault => simp [bind, Except.bind]
  | ok base =>
    simp only [bind, Except.bind, Except.ok.injEq, exists_eq_left']
    rw [← and_assoc, ← applyAll_eq_ok_iff]
    -- the options come one after the other, so a fault ends the loop wherever it is
    cases applyAll base (serverOptions words.tail) with
    | error fault => simp
    | ok s' =>
      simp only [validated_eq_ok_iff, Except.ok.injEq]
      refine and_congr_right fun h => ?_
      rw [h]

/-- A command line whose `--config` is the address that `--udp` takes. -/
def configAsValue : List String :=
  ["server", "--tcp", "127.0.0.1:0", "--udp", "--config", "x", "--udp", "127.0.0.1:0"]

/-- The file is read although the scan from left to right takes no `--config`. -/
theorem not_scansAgree_configAsValue : ¬ ScansAgree configAsValue ∧ Reads configAsValue "x" ∧
    ¬ ∃ value, Takes configAsValue.tail .config value := by
  have hreads : Reads configAsValue "x" := reads_iff_configPath?.mpr (by decide)
  have hnone : ¬ ∃ value, Takes configAsValue.tail .config value := by
    intro ⟨value, h⟩
    rw [← mem_serverOptions_iff] at h
    have hoptions : serverOptions configAsValue.tail =
        [(.tcpAddress, "127.0.0.1:0"), (.udpAddress, "--config"), (.udpAddress, "127.0.0.1:0")] := by
      decide
    rw [hoptions] at h
    simp at h
  exact ⟨fun h => hnone (h.reads_iff.mp ⟨"x", hreads⟩), hreads, hnone⟩

end Skirmish.CommandLine
