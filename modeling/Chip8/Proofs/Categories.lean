import Chip8.Debug.Log
import Chip8.Proofs.SmallLetters

/-!
# `Chip8.Proofs.Categories` — which categories are logged, and since when

The variable that names the categories is read at the first question and then remembered, also when it names
none, until the memory is cleared. So a question is answered by what the variable was at the first question
after the last clearing, whatever became of it. How the variable spells its names does not matter: their
order, repetitions, case, blanks around them and empty names are all forgotten.

## Contents
- **Requests.** `Question`, `Request`; `variableAfter`: the variable without any memory.
- **Phases.** `Phases`: the requests up to the last clearing, the changes before the next question, and the
  rest. Every list of requests has such phases (`exists_phases`).
- **Answers.** `respond`, `leaves`: what is answered, and what is left of the settings.
- **Memory.** The phases of the requests say which filter is in force (`filter_of_phases`).
- **Names.** `namesOf`: the names that a list of parts comes to. A filter has those of its parts
  (`mem_names_parse`).
- **Spelling.** `Restyled`: the same parts in another spelling, which have the same names.
- **Questions.** `questions_answered`.
-/

namespace Chip8.Debug

open Text

namespace Settings

/-! ## Requests -/

/-- What can be asked: whether a category is logged, or that a message be logged. -/
inductive Question where
  | enabled (category : Option String)
  | log (category message : String) (args : List Value)

/-- What can be requested of the settings. -/
inductive Request where
  | change (text : Option String)
  | reload
  | ask (q : Question)

/-- The variable after a request. -/
def Request.change? (value : Option String) : Request → Option String
  | .change text => if (checkVariable text).isOk then text else value
  | _ => value

/-- The variable after requests: what it was changed to last. -/
def variableAfter (value : Option String) (requests : List Request) : Option String :=
  requests.foldl Request.change? value

variable {s : Settings} {r : Request} {requests before quiet since : List Request} {value : Option String}

/-! ## Phases -/

/-- The phases of a list of requests: those up to the last clearing of the memory, those before the next
question, which are changes only, and those from this question on. -/
structure Phases (requests before quiet since : List Request) : Prop where
  eq : requests = before ++ quiet ++ since
  fresh : before = [] ∨ ∃ earlier, before = earlier ++ [.reload]
  quiet : ∀ r ∈ quiet, ∃ text, r = .change text
  opens : since = [] ∨ ∃ q rest, since = .ask q :: rest
  lasts : .reload ∉ since

theorem exists_phases (requests : List Request) :
    ∃ before quiet since, Phases requests before quiet since := by
  -- On the last request: a clearing starts anew, a question ends the quiet phase, a change stays in its own.
  induction requests using List.reverseRecOn with
  | nil => exact ⟨[], [], [], rfl, Or.inl rfl, nofun, Or.inl rfl, nofun⟩
  | append_singleton requests r ih =>
    obtain ⟨before, quiet, since, rfl, hfresh, hquiet, hopens, hlasts⟩ := ih
    cases r with
    | reload =>
      exact ⟨before ++ quiet ++ since ++ [.reload], [], [], by simp, Or.inr ⟨_, rfl⟩, nofun, Or.inl rfl,
        nofun⟩
    | ask q =>
      refine ⟨before, quiet, since ++ [.ask q], by simp, hfresh, hquiet, Or.inr ?_,
        by simpa using hlasts⟩
      rcases hopens with rfl | ⟨p, rest, rfl⟩
      · exact ⟨q, [], rfl⟩
      · exact ⟨p, rest ++ [.ask q], rfl⟩
    | change text =>
      rcases hopens with rfl | ⟨p, rest, rfl⟩
      · refine ⟨before, quiet ++ [.change text], [], by simp, hfresh, ?_, Or.inl rfl, nofun⟩
        intro r hr
        rcases List.mem_append.mp hr with hr | hr
        · exact hquiet r hr
        · exact ⟨text, List.mem_singleton.mp hr⟩
      · refine ⟨before, quiet, .ask p :: rest ++ [.change text], by simp, hfresh, hquiet,
          Or.inr ⟨p, rest ++ [.change text], rfl⟩, ?_⟩
        simpa using hlasts

/-! ## Answers -/

variable [Room]

/-- The answer to a request. -/
inductive Answer where
  | changed (result : Except VariableError Unit)
  | reloaded
  | enabled (b : Bool)
  | logged (result : Except Failure (Option Line))
  deriving DecidableEq

/-- The answer to a question under a filter. -/
def Question.answer (f : Filter) : Question → Answer
  | .enabled category => .enabled (f.enabled category)
  | .log category message args => .logged (Debug.log f category message args)

/-- The answer to a request, and the settings after it. A variable that cannot be changed stays. -/
def respond (s : Settings) : Request → Answer × Settings
  | .change text =>
    match s.change text with
    | .ok next => (.changed (.ok ()), next)
    | .error e => (.changed (.error e), s)
  | .reload => (.reloaded, s.reload)
  | .ask q => (q.answer s.filter, s.consulted)

/-- The settings after requests. -/
def leaves (s : Settings) (requests : List Request) : Settings :=
  requests.foldl (fun s r => (s.respond r).2) s

theorem leaves_append (s : Settings) (rs ts : List Request) :
    s.leaves (rs ++ ts) = (s.leaves rs).leaves ts := List.foldl_append

theorem value_respond (s : Settings) (r : Request) : (s.respond r).2.value = r.change? s.value := by
  cases r with
  | reload | ask q => rfl
  | change text =>
    simp only [respond, change, Request.change?]
    cases checkVariable text <;> rfl

theorem value_leaves (s : Settings) (requests : List Request) :
    (s.leaves requests).value = variableAfter s.value requests := by
  induction requests generalizing s with
  | nil => rfl
  | cons r rest ih =>
    show ((s.respond r).2.leaves rest).value = _
    rw [ih, value_respond]
    rfl

/-! ## Memory -/

/-- Changes leave alone what is remembered. -/
theorem remembered_change (s : Settings) (text : Option String) :
    (s.respond (.change text)).2.remembered = s.remembered := by
  simp only [respond, change]
  cases checkVariable text <;> rfl

/-- What is remembered stays until the memory is cleared. -/
theorem remembered_respond {f : Filter} (h : s.remembered = some f) (hr : r ≠ .reload) :
    (s.respond r).2.remembered = some f := by
  cases r with
  | change text => rw [remembered_change, h]
  | reload => exact absurd rfl hr
  | ask q =>
    show some s.filter = some f
    rw [filter, h]
    rfl

theorem remembered_fresh (hs : s.remembered = none)
    (h : before = [] ∨ ∃ earlier, before = earlier ++ [.reload]) :
    (s.leaves before).remembered = none := by
  rcases h with rfl | ⟨earlier, rfl⟩
  · exact hs
  · rw [leaves_append]
    rfl

theorem remembered_quiet (h : ∀ r ∈ quiet, ∃ text, r = .change text) :
    (s.leaves quiet).remembered = s.remembered := by
  induction quiet generalizing s with
  | nil => rfl
  | cons r rest ih =>
    obtain ⟨text, rfl⟩ := h r List.mem_cons_self
    rw [← remembered_change s text]
    exact ih fun r hr => h r (List.mem_cons_of_mem _ hr)

theorem remembered_lasting {f : Filter} (hs : s.remembered = some f) (h : .reload ∉ since) :
    (s.leaves since).remembered = some f := by
  induction since generalizing s with
  | nil => exact hs
  | cons r rest ih =>
    rw [List.mem_cons, not_or] at h
    exact ih (remembered_respond hs (Ne.symm h.1)) h.2

/-- **The filter in force** is the one that the variable asked for at the first question after the memory
was last cleared. -/
theorem filter_of_phases (h : Phases requests before quiet since) :
    (leaves ⟨value, none⟩ requests).filter
      = Filter.ofVariable (variableAfter value (before ++ quiet)) := by
  obtain ⟨rfl, hfresh, hquiet, hopens, hlasts⟩ := h
  have hread : (leaves ⟨value, none⟩ (before ++ quiet)).remembered = none := by
    rw [leaves_append, remembered_quiet hquiet]
    exact remembered_fresh rfl hfresh
  have hfilter : (leaves ⟨value, none⟩ (before ++ quiet)).filter
      = Filter.ofVariable (variableAfter value (before ++ quiet)) := by
    rw [filter, hread, value_leaves]
    rfl
  -- A question now would read the variable; the first of the last phase did, and nothing cleared it.
  rw [leaves_append]
  rcases hopens with rfl | ⟨q, rest, rfl⟩
  · exact hfilter
  · rw [← hfilter]
    have hrest : .reload ∉ rest := fun hmem => hlasts (List.mem_cons_of_mem _ hmem)
    have hlast := remembered_lasting (s := (leaves ⟨value, none⟩ (before ++ quiet)).consulted) rfl hrest
    show (leaves (leaves ⟨value, none⟩ (before ++ quiet)).consulted rest).filter = _
    rw [filter, hlast]
    rfl

end Settings

/-! ## Names -/

/-- The names that parts come to: trimmed and in small letters, without empty ones. -/
def namesOf (ps : List String) : Set String := {name | name ≠ "" ∧ ∃ p ∈ ps, lower (trim p) = name}

/-- Parts that commas separate, none of which holds a comma. -/
def CommaFree (ps : List String) : Prop := ∀ p ∈ ps, ',' ∉ p.toList

/-- The text that parts make with commas between them. -/
def joined (ps : List String) : String := String.intercalate "," ps

variable {ps qs : List String} {p q name : String}

theorem toList_joined (ps : List String) : (joined ps).toList = [','].intercalate (ps.map String.toList) :=
  String.toList_intercalate

/-- What is split at commas is what was joined by them. -/
theorem splitToList_joined (h : CommaFree ps) (hne : ps ≠ []) :
    (joined ps).splitToList (· == ',') = ps := by
  have hparts : ∀ cs ∈ ps.map String.toList, ',' ∉ cs := by
    intro cs hcs
    obtain ⟨p, hp, rfl⟩ := List.mem_map.mp hcs
    exact h p hp
  have hsplit := List.splitOn_intercalate ',' hparts (by simpa using hne)
  rw [String.splitToList_of_valid, toList_joined]
  rw [List.splitOn] at hsplit
  rw [hsplit, List.map_map]
  simp [Function.comp_def]

/-- No part of a list that is split holds what it was split at. -/
theorem not_of_mem_splitOnP {P : Char → Bool} {cs part : List Char} (h : part ∈ cs.splitOnP P) :
    ∀ c ∈ part, P c = false := by
  induction cs generalizing part with
  | nil =>
    rw [List.splitOnP_nil, List.mem_singleton] at h
    rw [h]
    nofun
  | cons c cs ih =>
    rw [List.splitOnP_cons_eq_if_modifyHead] at h
    split at h
    · rcases List.mem_cons.mp h with rfl | h
      · nofun
      · exact ih h
    · next hc =>
      cases hsplit : cs.splitOnP P with
      | nil =>
        rw [hsplit] at h
        cases h
      | cons first rest =>
        rw [hsplit] at h ih
        rcases List.mem_cons.mp h with rfl | h
        · intro c' hc'
          rcases List.mem_cons.mp hc' with rfl | hc'
          · exact eq_false_of_ne_true hc
          · exact ih List.mem_cons_self c' hc'
        · exact ih (List.mem_cons_of_mem _ h)

/-- Every text is made of parts. -/
theorem exists_parts (s : String) : ∃ ps, CommaFree ps ∧ s = joined ps := by
  refine ⟨(s.toList.splitOn ',').map String.ofList, ?_, ?_⟩
  · intro p hp
    obtain ⟨cs, hcs, rfl⟩ := List.mem_map.mp hp
    rw [String.toList_ofList]
    intro hcomma
    have hne := not_of_mem_splitOnP hcs ',' hcomma
    cases hne
  · rw [← String.toList_inj, toList_joined, List.map_map]
    simp only [Function.comp_def, String.toList_ofList, List.map_id']
    exact (List.intercalate_splitOn ',').symm

theorem Filter.mem_names_parse (h : CommaFree ps) :
    name ∈ (Filter.parse (joined ps)).names ↔ name ∈ namesOf ps := by
  by_cases hne : ps = []
  · subst hne
    have hparse : Filter.parse (joined []) = ⟨[]⟩ := by decide +kernel
    rw [hparse]
    simp [namesOf]
  · rw [Filter.parse, splitToList_joined h hne]
    simp only [namesOf, List.mem_filter, List.mem_map, Set.mem_ofPred_eq]
    constructor
    · rintro ⟨⟨p, hp, rfl⟩, hname⟩
      exact ⟨by simpa using hname, p, hp, rfl⟩
    · rintro ⟨hname, p, hp, rfl⟩
      exact ⟨⟨p, hp, rfl⟩, by simpa using hname⟩

theorem Filter.enabled_parse (h : CommaFree ps) :
    ((Filter.parse (joined ps)).enabled none = true ↔ (namesOf ps).Nonempty)
      ∧ ∀ c, (Filter.parse (joined ps)).enabled (some c) = true
        ↔ "all" ∈ namesOf ps ∨ lower c ∈ namesOf ps := by
  have hnames : ∀ name, name ∈ (Filter.parse (joined ps)).names ↔ name ∈ namesOf ps :=
    fun name => Filter.mem_names_parse h
  have hnonempty : (Filter.parse (joined ps)).names.isEmpty = false ↔ (namesOf ps).Nonempty := by
    rw [List.isEmpty_eq_false_iff_exists_mem]
    exact exists_congr hnames
  constructor
  · simp only [Filter.enabled, Bool.or_true, Bool.and_true, Bool.not_eq_true']
    exact hnonempty
  · intro c
    simp only [Filter.enabled, Bool.and_eq_true, Bool.or_eq_true, Bool.not_eq_true',
      List.contains_iff_mem, hnonempty, hnames]
    constructor
    · exact And.right
    · intro hname
      refine ⟨?_, hname⟩
      rcases hname with hname | hname
      · exact ⟨_, hname⟩
      · exact ⟨_, hname⟩

/-! ## Spelling -/

/-- Parts in another spelling: in another order, repeated, with other capitals of ASCII, with blanks at
their ends, and with parts that are blank. -/
inductive Restyled : List String → List String → Prop where
  | reordered {ps qs : List String} (h : ps.Perm qs) : Restyled ps qs
  | repeated {p : String} {ps : List String} (h : p ∈ ps) : Restyled ps (p :: ps)
  | recased {p q : String} {ps : List String} (h : p.toList.map Char.toLower = q.toList.map Char.toLower) :
      Restyled (p :: ps) (q :: ps)
  | padded {before p after : String} {ps : List String}
      (hbefore : ∀ c ∈ before.toList, isBlank c = true)
      (hafter : ∀ c ∈ after.toList, isBlank c = true) :
      Restyled (p :: ps) ((before ++ p ++ after) :: ps)
  | blank {p : String} {ps : List String} (h : ∀ c ∈ p.toList, isBlank c = true) : Restyled ps (p :: ps)
  | symm {ps qs : List String} (h : Restyled ps qs) : Restyled qs ps
  | trans {ps qs rs : List String} (h : Restyled ps qs) (h' : Restyled qs rs) : Restyled ps rs

theorem mem_namesOf_cons :
    name ∈ namesOf (p :: ps) ↔ name ≠ "" ∧ lower (trim p) = name ∨ name ∈ namesOf ps := by
  simp only [namesOf, Set.mem_ofPred_eq, List.mem_cons, exists_eq_or_imp]
  rw [and_or_left]

theorem namesOf_cons_congr (h : lower (trim p) = lower (trim q)) :
    namesOf (p :: ps) = namesOf (q :: ps) := by
  ext name
  rw [mem_namesOf_cons, mem_namesOf_cons, h]

/-- **Another spelling has the same names.** -/
theorem Restyled.namesOf_eq (h : Restyled ps qs) : namesOf ps = namesOf qs := by
  induction h with
  | reordered h =>
    ext name
    simp only [namesOf, Set.mem_ofPred_eq, h.mem_iff]
  | @repeated p ps h =>
    ext name
    rw [mem_namesOf_cons]
    constructor
    · exact Or.inr
    · rintro (⟨hne, rfl⟩ | hname)
      · exact ⟨hne, p, h, rfl⟩
      · exact hname
  | recased h => exact namesOf_cons_congr (lower_trim_of_toLower h)
  | padded hbefore hafter =>
    refine namesOf_cons_congr (congrArg lower ?_)
    exact (trim_append hbefore hafter).symm
  | @blank p ps h =>
    have hempty : lower (trim p) = "" := by
      rw [trim_eq_empty h]
      rfl
    ext name
    rw [mem_namesOf_cons, hempty]
    constructor
    · exact Or.inr
    · rintro (⟨hne, rfl⟩ | hname)
      · exact absurd rfl hne
      · exact hname
  | symm h ih => exact ih.symm
  | trans h h' ih ih' => exact ih.trans ih'

/-- Filters of the same names answer alike. -/
theorem Filter.enabled_parse_congr (hps : CommaFree ps) (hqs : CommaFree qs) (h : namesOf ps = namesOf qs)
    (category : Option String) :
    (Filter.parse (joined ps)).enabled category = (Filter.parse (joined qs)).enabled category := by
  obtain ⟨hany, hnamed⟩ := Filter.enabled_parse hps
  obtain ⟨hany', hnamed'⟩ := Filter.enabled_parse hqs
  rw [Bool.eq_iff_iff]
  cases category with
  | none => rw [hany, hany', h]
  | some c => rw [hnamed, hnamed', h]

/-! ## Questions -/

open Settings

theorem Settings.Question.answer_congr [Room] {f g : Filter}
    (h : ∀ category, f.enabled category = g.enabled category) (q : Question) : q.answer f = q.answer g := by
  cases q with
  | enabled category => exact congrArg Answer.enabled (h category)
  | log category message args => simp only [Question.answer, Debug.log, h]

/-- **Questions are answered by the variable as it was first asked for.** Any requests fall into phases, and a
question behind them is answered by what the variable was at the end of the quiet one. A message is logged in
the categories that are enabled. The parts of the variable come to names: any category is enabled if there is
one, and a category if its small letters are one or `all` is. So another spelling of the parts changes no
answer. -/
theorem questions_answered [Room] (value : Option String) (requests : List Request) :
    (∃ before quiet since, Phases requests before quiet since)
    ∧ (∀ before quiet since, Phases requests before quiet since → ∀ q : Question,
        ((Settings.leaves ⟨value, none⟩ requests).respond (.ask q)).1
          = q.answer (Filter.ofVariable (variableAfter value (before ++ quiet))))
    ∧ (∀ f category message args, Debug.log f category message args = .ok none
        ↔ f.enabled (some category) = false)
    ∧ (∀ category, (Filter.ofVariable none).enabled category = false)
    ∧ (∀ text, ∃ ps, CommaFree ps ∧ text = joined ps)
    ∧ (∀ ps, CommaFree ps →
        ((Filter.ofVariable (some (joined ps))).enabled none = true ↔ (namesOf ps).Nonempty)
        ∧ ∀ c, (Filter.ofVariable (some (joined ps))).enabled (some c) = true
          ↔ "all" ∈ namesOf ps ∨ lower c ∈ namesOf ps)
    ∧ ∀ ps qs, CommaFree ps → CommaFree qs → Restyled ps qs → ∀ q : Question,
        q.answer (Filter.ofVariable (some (joined ps)))
          = q.answer (Filter.ofVariable (some (joined qs))) := by
  refine ⟨exists_phases requests, ?_, ?_, fun category => rfl, exists_parts,
    fun ps => Filter.enabled_parse, ?_⟩
  · intro before quiet since hphases q
    rw [← filter_of_phases hphases]
    rfl
  · intro f category message args
    rw [Debug.log]
    cases f.enabled (some category) with
    | false => simp
    | true => cases compose message args <;> simp [Except.map]
  · intro ps qs hps hqs hstyle q
    exact Question.answer_congr (Filter.enabled_parse_congr hps hqs hstyle.namesOf_eq) q

attribute [local instance] Room.ample

/-- The variable is asked for while it is unset, cleared from memory, changed, asked for again and unset: it
counts as it was at the second question. Its blanks, its capitals and its empty part do not. -/
theorem stale_questions_answered :
    Phases [.ask (.enabled none), .reload, .change (some " CPU,"), .ask (.enabled none), .change none]
        [.ask (.enabled none), .reload] [.change (some " CPU,")] [.ask (.enabled none), .change none]
      ∧ ((Settings.leaves ⟨none, none⟩ [.ask (.enabled none), .reload, .change (some " CPU,"),
          .ask (.enabled none), .change none]).respond (.ask (.enabled (some "Cpu")))).1
        = Question.answer (Filter.ofVariable (variableAfter none
          ([.ask (.enabled none), .reload] ++ [.change (some " CPU,")]))) (.enabled (some "Cpu"))
      ∧ CommaFree [" CPU", ""] ∧ CommaFree ["cpu"] ∧ Restyled [" CPU", ""] ["cpu"]
      ∧ Question.answer (Filter.ofVariable (some (joined [" CPU", ""]))) (.enabled (some "Cpu"))
        = Question.answer (Filter.ofVariable (some (joined ["cpu"]))) (.enabled (some "Cpu"))
      ∧ Question.answer (Filter.ofVariable (some (joined ["cpu"]))) (.enabled (some "Cpu"))
        = .enabled true := by
  have hphases : Phases
      [.ask (.enabled none), .reload, .change (some " CPU,"), .ask (.enabled none), .change none]
      [.ask (.enabled none), .reload] [.change (some " CPU,")] [.ask (.enabled none), .change none] := by
    refine ⟨rfl, Or.inr ⟨[.ask (.enabled none)], rfl⟩, ?_, Or.inr ⟨_, _, rfl⟩, by simp⟩
    intro r hr
    exact ⟨_, List.mem_singleton.mp hr⟩
  have hblank : CommaFree [" CPU", ""] := by
    intro p hp
    fin_cases hp <;> decide +kernel
  have hplain : CommaFree ["cpu"] := by
    intro p hp
    fin_cases hp
    decide +kernel
  have hstyle : Restyled [" CPU", ""] ["cpu"] := by
    have hempty : Restyled ["", " CPU"] [" CPU"] := .symm (.blank nofun)
    have hpadded : Restyled [" CPU"] ["CPU"] := by
      have happend : " " ++ "CPU" ++ "" = " CPU" := by decide +kernel
      have hblank : ∀ c ∈ " ".toList, isBlank c = true := by
        intro c hc
        obtain rfl : c = ' ' := by simpa using hc
        decide +kernel
      have hpad := @Restyled.padded " " "CPU" "" [] hblank nofun
      rw [happend] at hpad
      exact hpad.symm
    have hcapital : Restyled ["CPU"] ["cpu"] := .recased (by decide +kernel)
    exact .trans (.reordered (List.Perm.swap _ _ _)) (hempty.trans (hpadded.trans hcapital))
  obtain ⟨-, hmemory, -, -, -, -, hspelling⟩ := questions_answered none
    [.ask (.enabled none), .reload, .change (some " CPU,"), .ask (.enabled none), .change none]
  exact ⟨hphases, hmemory _ _ _ hphases _, hblank, hplain, hstyle, hspelling _ _ hblank hplain hstyle _,
    by decide +kernel⟩

end Chip8.Debug
