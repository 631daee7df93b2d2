import CommandShell.Arguments
import Mathlib.Data.List.Induction

/-!
# The grammar of the arguments

The arguments of the program are a sequence of items: a flag, the option for the settings file
with the path behind it, or the path of a script, which does not begin with a dash.  After a
double dash everything is the path of a script.  Reading follows this grammar.  Each item is
known by its first word, so arguments can be cut into items in one way only, up to the first
word that does not begin an item.
-/

namespace CommandShell.Arguments

/-! ## Items -/

/-- An item of the arguments. -/
inductive Item where
  /-- `--debug` -/
  | debug
  /-- `--help` -/
  | help
  /-- `-h` -/
  | briefHelp
  /-- `--batch` -/
  | batch
  /-- `--config` with any word behind it. -/
  | config (path : String)
  /-- A word that does not begin with a dash. -/
  | script (path : String) (plain : startsWith "-" path = false)

namespace Item

/-- The words of an item. -/
def words : Item → List String
  | debug => ["--debug"]
  | help => ["--help"]
  | briefHelp => ["-h"]
  | batch => ["--batch"]
  | config path => ["--config", path]
  | script path _ => [path]

/-- The settings file that the item names. -/
def config? : Item → Option String
  | config path => some path
  | _ => none

/-- The script that the item names. -/
def script? : Item → Option String
  | script path _ => some path
  | _ => none

/-- Takes an item in. -/
def apply (taken : Arguments) : Item → Arguments
  | debug => { taken with debug := true }
  | help => { taken with help := true }
  | briefHelp => { taken with help := true }
  | batch => { taken with batch := true }
  | config path => { taken with config := path }
  | script path _ => { taken with scripts := taken.scripts ++ [path] }

/-- A script is none of the options. -/
theorem ne_of_plain {path : String} (plain : startsWith "-" path = false) {word : String}
    (hword : startsWith "-" word = true) : path ≠ word := by
  rintro rfl
  rw [plain] at hword
  cases hword

/-- Reading takes one item in. -/
theorem parseFrom_words (item : Item) (taken : Arguments) (rest : List String) :
    parseFrom taken (item.words ++ rest) = parseFrom (item.apply taken) rest := by
  cases item with
  | script path plain =>
    have hne : ∀ word, startsWith "-" word = true → path ≠ word := fun _ => ne_of_plain plain
    rw [words, List.singleton_append, parseFrom.eq_def]
    simp only [if_neg (hne "--config" rfl), if_neg (hne "--debug" rfl),
      if_neg (not_or.2 ⟨hne "--help" rfl, hne "-h" rfl⟩), if_neg (hne "--batch" rfl),
      if_neg (hne "--" rfl), plain]
    rfl
  | _ =>
    rw [words, parseFrom.eq_def]
    rfl

/-- An item is known by the words that a list begins with. -/
theorem words_append_inj {item item' : Item} {rest rest' : List String}
    (h : item.words ++ rest = item'.words ++ rest') : item = item' ∧ rest = rest' := by
  cases item with
  | script path plain =>
    cases item' with
    | script path' plain' => simpa [words] using h
    | _ => exact absurd (List.cons.inj h).1 (ne_of_plain plain rfl)
  | _ =>
    cases item' with
    | script path plain => exact absurd (List.cons.inj h).1.symm (ne_of_plain plain rfl)
    | _ => simp_all [words]

end Item

/-! ## The grammar -/

/-- Items, one after another. -/
def written (items : List Item) : List String :=
  items.flatMap Item.words

/-- Arguments that follow the grammar: items, and possibly a double dash with any words. -/
inductive Sentence : List String → List Item → List String → Prop
  | plain (items : List Item) : Sentence (written items) items []
  | dashed (items : List Item) (others : List String) :
    Sentence (written items ++ "--" :: others) items others

/-- The list begins with what is no item, and is not a double dash either; this is said about
it. -/
inductive Stray : List String → String → Prop
  | pathless : Stray ["--config"] "--config requires a path"
  | unknown {word : String} (hdash : startsWith "-" word = true)
    (hword : word ∉ ["--debug", "--help", "-h", "--batch", "--config", "--"])
    (rest : List String) : Stray (word :: rest) ("Unknown option " ++ word)

theorem Stray.message_ne {rest : List String} {message : String} (h : Stray rest message) :
    message ≠ "" := by
  cases h with
  | pathless => decide
  | unknown hdash hword rest => simp

theorem Stray.ne_append {rest : List String} {message : String} (h : Stray rest message)
    (item : Item) (more : List String) : rest ≠ item.words ++ more := by
  rintro rfl
  cases item with
  | script path plain =>
    generalize hwords : (Item.script path plain).words ++ more = words at h
    cases h with
    | pathless => exact Item.ne_of_plain plain rfl (List.cons.inj hwords).1
    | unknown hdash hword rest => exact Item.ne_of_plain plain hdash (List.cons.inj hwords).1
  | _ =>
    generalize hwords : Item.words _ ++ more = words at h
    cases h with
    | pathless => simp [Item.words] at hwords
    | unknown hdash hword rest =>
      obtain rfl := (List.cons.inj hwords).1
      simp at hword

/-- A list begins with an item, unless it is empty or begins with a double dash or with what is
no item. -/
theorem exists_item (word : String) (rest : List String) :
    (∃ (item : Item) (more : List String), word :: rest = item.words ++ more) ∨ word = "--" ∨
      ∃ message, Stray (word :: rest) message := by
  by_cases hoption : word ∈ ["--debug", "--help", "-h", "--batch", "--config", "--"]
  · simp only [List.mem_cons, List.not_mem_nil, or_false] at hoption
    obtain rfl | rfl | rfl | rfl | rfl | rfl := hoption
    · exact .inl ⟨.debug, rest, rfl⟩
    · exact .inl ⟨.help, rest, rfl⟩
    · exact .inl ⟨.briefHelp, rest, rfl⟩
    · exact .inl ⟨.batch, rest, rfl⟩
    · cases rest with
      | nil => exact .inr (.inr ⟨_, .pathless⟩)
      | cons path more => exact .inl ⟨.config path, more, rfl⟩
    · exact .inr (.inl rfl)
  · cases hdash : startsWith "-" word with
    | true => exact .inr (.inr ⟨_, .unknown hdash hoption rest⟩)
    | false => exact .inl ⟨.script word hdash, rest, rfl⟩

/-- Every list is cut into items up to its end, a double dash, or what is no item. -/
theorem exists_written (words : List String) :
    ∃ items rest, words = written items ++ rest ∧
      (rest = [] ∨ (∃ others, rest = "--" :: others) ∨ ∃ message, Stray rest message) := by
  induction hn : words.length using Nat.strongRecOn generalizing words with
  | ind n ih =>
    cases words with
    | nil => exact ⟨[], [], rfl, .inl rfl⟩
    | cons word rest =>
      obtain ⟨item, more, hitem⟩ | rfl | ⟨message, hstray⟩ := exists_item word rest
      · have hlength : more.length < n := by
          rw [← hn, hitem, List.length_append]
          have : 0 < item.words.length := by cases item <;> simp [Item.words]
          omega
        obtain ⟨items, rest', hmore, hrest⟩ := ih _ hlength more rfl
        refine ⟨item :: items, rest', ?_, hrest⟩
        rw [hitem, hmore, written, written, List.flatMap_cons, List.append_assoc]
      · exact ⟨[], _, rfl, .inr (.inl ⟨rest, rfl⟩)⟩
      · exact ⟨[], _, rfl, .inr (.inr ⟨message, hstray⟩)⟩

/-- What does not follow the grammar has something in it that is no item. -/
theorem exists_stray {words : List String} (h : ¬ ∃ items others, Sentence words items others) :
    ∃ items rest message, words = written items ++ rest ∧ Stray rest message := by
  obtain ⟨items, rest, rfl, rfl | ⟨others, rfl⟩ | ⟨message, hstray⟩⟩ := exists_written words
  · rw [List.append_nil] at h
    exact absurd ⟨items, [], .plain items⟩ h
  · exact absurd ⟨items, others, .dashed items others⟩ h
  · exact ⟨items, rest, message, rfl, hstray⟩

/-- Before what is no item, there is only one way to go on. -/
theorem prefix_of_stray {items items' : List Item} {rest rest' : List String} {message : String}
    (hstray : Stray rest message) (h : written items ++ rest = written items' ++ rest') :
    items' <+: items := by
  induction items' generalizing items with
  | nil => exact List.nil_prefix
  | cons item' items' ih =>
    rw [written, written, List.flatMap_cons, List.append_assoc] at h
    cases items with
    | nil => exact absurd h (hstray.ne_append _ _)
    | cons item items =>
      rw [List.flatMap_cons, List.append_assoc] at h
      obtain ⟨rfl, hrest⟩ := Item.words_append_inj h
      exact List.cons_prefix_cons.2 ⟨rfl, ih hrest⟩

/-! ## Reading -/

/-- What is taken in after some items. -/
def taken (items : List Item) : Arguments :=
  items.foldl Item.apply {}

theorem parse_written (items : List Item) (rest : List String) :
    parse (written items ++ rest) = parseFrom (taken items) rest := by
  have hfrom : ∀ start, parseFrom start (written items ++ rest) =
      parseFrom (items.foldl Item.apply start) rest := by
    induction items with
    | nil => intro start; rfl
    | cons item items ih =>
      intro start
      rw [written, List.flatMap_cons, List.append_assoc, Item.parseFrom_words]
      exact ih _
  exact hfrom {}

theorem parse_dashed (items : List Item) (others : List String) :
    parse (written items ++ "--" :: others) =
      { taken items with scripts := (taken items).scripts ++ others } := by
  rw [parse_written, parseFrom.eq_def]
  rfl

theorem parse_stray {items : List Item} {rest : List String} {message : String}
    (h : Stray rest message) :
    parse (written items ++ rest) = { taken items with error := message } := by
  rw [parse_written]
  cases h with
  | pathless => rfl
  | @unknown word hdash hword rest =>
    simp only [List.mem_cons, List.not_mem_nil, or_false, not_or] at hword
    obtain ⟨hdebug, hhelp, hbrief, hbatch, hconfig, hdashes⟩ := hword
    rw [parseFrom.eq_def]
    simp only [if_neg hconfig, if_neg hdebug, if_neg (not_or.2 ⟨hhelp, hbrief⟩), if_neg hbatch,
      if_neg hdashes, if_pos hdash]

/-- What items, and the words behind a double dash, ask for. -/
structure Asks (a : Arguments) (items : List Item) (others : List String) : Prop where
  debug : a.debug = true ↔ .debug ∈ items
  help : a.help = true ↔ .help ∈ items ∨ .briefHelp ∈ items
  batch : a.batch = true ↔ .batch ∈ items
  config : a.config = (items.filterMap Item.config?).getLastD ""
  scripts : a.scripts = items.filterMap Item.script? ++ others

/-- The induction adds an item at the end, as reading does. -/
theorem asks_taken (items : List Item) :
    Asks (taken items) items [] ∧ (taken items).error = "" := by
  induction items using List.reverseRecOn with
  | nil => exact ⟨⟨by simp [taken], by simp [taken], by simp [taken], rfl, rfl⟩, rfl⟩
  | append_singleton items item ih =>
    obtain ⟨hasks, herror⟩ := ih
    have htaken : taken (items ++ [item]) = item.apply (taken items) := by
      rw [taken, List.foldl_append]
      rfl
    rw [htaken]
    refine ⟨⟨?_, ?_, ?_, ?_, ?_⟩, ?_⟩
    · cases item <;> simp [Item.apply, hasks.debug]
    · cases item <;> simp [Item.apply, hasks.help]
    · cases item <;> simp [Item.apply, hasks.batch]
    · cases item <;> simp [Item.apply, hasks.config, Item.config?]
    · cases item <;> simp [Item.apply, hasks.scripts, Item.script?]
    · cases item <;> exact herror

theorem Sentence.asks_parse {words others : List String} {items : List Item}
    (h : Sentence words items others) :
    Asks (parse words) items others ∧ (parse words).error = "" := by
  obtain ⟨hasks, herror⟩ := asks_taken items
  cases h with
  | plain =>
    have hparse : parse (written items) = taken items := by
      simpa [parseFrom] using parse_written items []
    rw [hparse]
    exact ⟨hasks, herror⟩
  | dashed =>
    rw [parse_dashed]
    refine ⟨⟨hasks.debug, hasks.help, hasks.batch, hasks.config, ?_⟩, herror⟩
    rw [hasks.scripts, List.append_nil]

/-! ## Writing -/

/-- The options, as items. -/
def options (a : Arguments) : List Item :=
  (if a.config = "" then [] else [.config a.config]) ++ (if a.debug then [.debug] else []) ++
    (if a.help then [.help] else []) ++ (if a.batch then [.batch] else [])

/-- Arguments in their canonical form: options, a double dash, and the scripts. -/
def render (a : Arguments) : List String :=
  written a.options ++ "--" :: a.scripts

theorem asks_options (a : Arguments) : Asks a a.options a.scripts where
  debug := by simp [options]
  help := by simp [options]
  batch := by simp [options]
  config := by
    have hconfig : a.options.filterMap Item.config? = if a.config = "" then [] else [a.config] := by
      rw [options]
      split_ifs <;> rfl
    rw [hconfig]
    split_ifs with hempty
    · exact hempty
    · rfl
  scripts := by
    have hscripts : a.options.filterMap Item.script? = [] := by
      rw [options]
      split_ifs <;> rfl
    rw [hscripts, List.nil_append]

/-- What is asked for is all there is to arguments, apart from what is wrong with them. -/
theorem Asks.unique {a b : Arguments} {items : List Item} {others : List String}
    (ha : Asks a items others) (hb : Asks b items others) (herror : a.error = b.error) : a = b := by
  have hdebug : a.debug = b.debug := Bool.eq_iff_iff.2 (ha.debug.trans hb.debug.symm)
  have hhelp : a.help = b.help := Bool.eq_iff_iff.2 (ha.help.trans hb.help.symm)
  have hbatch : a.batch = b.batch := Bool.eq_iff_iff.2 (ha.batch.trans hb.batch.symm)
  have hconfig : a.config = b.config := ha.config.trans hb.config.symm
  have hscripts : a.scripts = b.scripts := ha.scripts.trans hb.scripts.symm
  cases a
  cases b
  rw [mk.injEq]
  exact ⟨hconfig, hdebug, hhelp, hbatch, hscripts, herror⟩

/-- **Reading follows the grammar.**  Nothing is wrong with arguments exactly if they are items,
possibly followed by a double dash and any words.  Then a flag is set if it occurs, the last
settings file counts, and the scripts are those among the items in order, with all words behind
the double dash.  Otherwise they begin with items, as many as there can be, and what comes next
is no item: this is what the message names, and the items before it are taken in.  Arguments in
their canonical form are read back as they were. -/
theorem parse_grammar (words : List String) :
    ((parse words).error = "" ↔ ∃ items others, Sentence words items others) ∧
    (∀ items others, Sentence words items others → Asks (parse words) items others) ∧
    ((¬ ∃ items others, Sentence words items others) → ∃ items rest,
      words = written items ++ rest ∧ Stray rest (parse words).error ∧
      Asks (parse words) items [] ∧
      ∀ items' rest', words = written items' ++ rest' → items' <+: items) ∧
    ∀ a : Arguments, a.error = "" → parse a.render = a := by
  refine ⟨⟨?_, ?_⟩, fun items others h => h.asks_parse.1, ?_, ?_⟩
  · intro herror
    by_contra hnone
    obtain ⟨items, rest, message, rfl, hstray⟩ := exists_stray hnone
    rw [parse_stray hstray] at herror
    exact hstray.message_ne herror
  · rintro ⟨items, others, h⟩
    exact h.asks_parse.2
  · intro hnone
    obtain ⟨items, rest, message, rfl, hstray⟩ := exists_stray hnone
    have htaken := (asks_taken items).1
    refine ⟨items, rest, rfl, ?_, ?_, fun items' rest' => prefix_of_stray hstray⟩
    · rw [parse_stray hstray]
      exact hstray
    · rw [parse_stray hstray]
      exact ⟨htaken.debug, htaken.help, htaken.batch, htaken.config, htaken.scripts⟩
  · intro a herror
    obtain ⟨hparsed, hfine⟩ := (Sentence.dashed a.options a.scripts).asks_parse
    exact hparsed.unique a.asks_options (hfine.trans herror.symm)

/-- An option that is a path, and another that is a script; an option that is unknown; and a
script that looks like an option, written and read. -/
theorem disguised_grammar :
    Sentence ["--config", "-x", "a", "--", "--help"] [.config "-x", .script "a" rfl] ["--help"] ∧
    Asks (parse ["--config", "-x", "a", "--", "--help"]) [.config "-x", .script "a" rfl]
      ["--help"] ∧
    (¬ ∃ items others, Sentence ["-h", "--nope", "a"] items others) ∧
    (∃ items rest, ["-h", "--nope", "a"] = written items ++ rest ∧
      Stray rest "Unknown option --nope" ∧ Asks (parse ["-h", "--nope", "a"]) items []) ∧
    parse (render { config := "c", batch := true, scripts := ["--debug"] }) =
      { config := "c", batch := true, scripts := ["--debug"] } := by
  have hsentence : Sentence ["--config", "-x", "a", "--", "--help"]
      [.config "-x", .script "a" rfl] ["--help"] := .dashed [.config "-x", .script "a" rfl] _
  obtain ⟨-, hasks, -, hrender⟩ := parse_grammar ["--config", "-x", "a", "--", "--help"]
  obtain ⟨hfine, -, hwrong, -⟩ := parse_grammar ["-h", "--nope", "a"]
  have herror : (parse ["-h", "--nope", "a"]).error = "Unknown option --nope" := rfl
  have hnone : ¬ ∃ items others, Sentence ["-h", "--nope", "a"] items others := by
    rw [← hfine, herror]
    decide
  obtain ⟨items, rest, hwords, hstray, htaken, -⟩ := hwrong hnone
  rw [herror] at hstray
  exact ⟨hsentence, hasks _ _ hsentence, hnone, ⟨items, rest, hwords, hstray, htaken⟩,
    hrender _ rfl⟩

end CommandShell.Arguments
