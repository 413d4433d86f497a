import ChainIngest.Proofs.SettingsTables
import ChainIngest.Settings.Loading

/-!
The environment over the settings file. A variable's text changes the one setting that the variable
names (`Settings.Scalar.decode_put`), so an environment changes the settings that its variables name
and no others (`Settings.environment_replaces_named_settings`). Only a section that is written as a
list of its fields gives way as a whole (`Settings.Scalar.decode_put_of_list`).
-/

namespace ChainIngest

/-! ### Values at places -/

/-- A place begins with a name. -/
theorem Place.readSteps_eq_some {place : Place} (h : readSteps name cs = some place) :
    ∃ first rest, place = .field first :: rest := by
  induction cs generalizing name with
  | nil =>
    rw [readSteps] at h
    split at h
    · cases h
    · cases h
      exact ⟨_, _, rfl⟩
  | cons c cs ih =>
    rw [readSteps] at h
    split at h
    · exact ih h
    split at h
    · cases h
    · obtain ⟨rest, -, rfl⟩ := Option.map_eq_some_iff.mp h
      exact ⟨_, _, rfl⟩

namespace Document

theorem assign_table (entries : List (String × Document)) (key : String) (d : Document) :
    ∃ entries', (table entries).assign key d = table entries' := by
  rw [assign]
  cases h : Place.ofString? key with
  | none => exact ⟨_, rfl⟩
  | some place =>
    obtain ⟨first, rest, rfl⟩ := Place.readSteps_eq_some h
    exact ⟨_, rfl⟩

theorem assignAll_cons (d : Document) (value : String × Document)
    (values : List (String × Document)) :
    d.assignAll (value :: values) = (d.assign value.1 value.2).assignAll values := rfl

theorem assignAll_table (values entries : List (String × Document)) :
    ∃ entries', (table entries).assignAll values = table entries' := by
  induction values generalizing entries with
  | nil => exact ⟨entries, rfl⟩
  | cons value values ih =>
    obtain ⟨entries', h⟩ := assign_table entries value.1 value.2
    rw [assignAll_cons, h]
    exact ih entries'

/-- Values at places that are names are the entries of a table over what was there. -/
theorem assignAll_of_names (h : ∀ value ∈ values, Place.ofString? value.1 = some [.field value.1])
    (entries : List (String × Document)) :
    (table entries).assignAll values = (table values).laidOver (table entries) := by
  induction values generalizing entries with
  | nil => rw [laidOver, entriesOver]; rfl
  | cons value values ih =>
    obtain ⟨hvalue, hvalues⟩ := List.forall_mem_cons.mp h
    have hassign : (table entries).assign value.1 value.2 =
        table (updateEntry value.1 value.2.laidOver entries) := by
      rw [assign, hvalue]
      rfl
    rw [assignAll_cons, hassign, ih hvalues, laidOver, laidOver, entriesOver]
    rfl

end Document

namespace Settings

open Document

/-! ### The settings that variables are for -/

/-- A single value of the settings that is in no list. -/
inductive Scalar where
  | postgres (f : PostgresField)
  | prices (f : PriceField)
  | scheduler (f : CadenceField)
  | rpcTimeoutSecs
  deriving DecidableEq

namespace Scalar

/-- The section that the setting is in. -/
def section? : Scalar → Option String
  | postgres _ => some "postgres"
  | prices _ => some "prices"
  | scheduler _ => some "scheduler"
  | rpcTimeoutSecs => none

def name : Scalar → String
  | postgres f => f.name
  | prices f => f.name
  | scheduler f => f.name
  | rpcTimeoutSecs => "rpc_timeout_secs"

/-- The names on the way to the setting. -/
def path (f : Scalar) : List String := f.section?.toList ++ [f.name]

def key (f : Scalar) : String := ".".intercalate f.path

/-- The name of the variable for the setting, in lower case. -/
def variableName (f : Scalar) : String := "__".intercalate ("pricefeed" :: f.path)

def Value : Scalar → Type
  | postgres f => f.Value
  | prices _ => String
  | scheduler _ | rpcTimeoutSecs => UInt64

def get (s : Settings) : (f : Scalar) → f.Value
  | postgres f => f.get s.postgres
  | prices f => f.get s.prices
  | scheduler f => f.get s.scheduler
  | rpcTimeoutSecs => s.rpcTimeoutSecs

def set (s : Settings) : (f : Scalar) → f.Value → Settings
  | postgres f, value => { s with postgres := f.set s.postgres value }
  | prices f, value => { s with prices := f.set s.prices value }
  | scheduler f, value => { s with scheduler := f.set s.scheduler value }
  | rpcTimeoutSecs, value => { s with rpcTimeoutSecs := value }

def decoder : (f : Scalar) → Decoder f.Value
  | postgres f => f.decoder .lenient
  | prices _ => Dialect.lenient.text
  | scheduler _ | rpcTimeoutSecs => Dialect.lenient.word64

theorem get_set_self (s : Settings) (f : Scalar) (value : f.Value) :
    get (set s f value) f = value := by
  cases f with
  | postgres f => exact (postgresLayout .lenient).get_set_self _ _ _
  | prices f => exact (priceLayout .lenient).get_set_self _ _ _
  | scheduler f => exact (cadenceLayout .lenient).get_set_self _ _ _
  | rpcTimeoutSecs => rfl

theorem get_set_of_ne {f g : Scalar} (h : g ≠ f) (s : Settings) (value : f.Value) :
    get (set s f value) g = get s g := by
  cases f with
  | postgres f =>
    cases g with
    | postgres g =>
      exact (postgresLayout .lenient).get_set_of_ne (fun hg => h (congrArg postgres hg)) _ _
    | _ => rfl
  | prices f =>
    cases g with
    | prices g =>
      exact (priceLayout .lenient).get_set_of_ne (fun hg => h (congrArg prices hg)) _ _
    | _ => rfl
  | scheduler f =>
    cases g with
    | scheduler g =>
      exact (cadenceLayout .lenient).get_set_of_ne (fun hg => h (congrArg scheduler hg)) _ _
    | _ => rfl
  | rpcTimeoutSecs =>
    cases g with
    | rpcTimeoutSecs => exact absurd rfl h
    | _ => rfl

theorem chains_set (s : Settings) (f : Scalar) (value : f.Value) :
    (set s f value).chains = s.chains := by
  cases f <;> rfl

/-- Settings are determined by these values and their chains. -/
theorem eq_of_get {s t : Settings} (hchains : s.chains = t.chains)
    (hget : ∀ f, get s f = get t f) : s = t := by
  have hpostgres : s.postgres = t.postgres := by
    obtain ⟨h₁, h₂, h₃, h₄, h₅, h₆⟩ := PostgresField.forall_iff.mp fun f => hget (postgres f)
    exact PostgresSettings.mk.injEq .. ▸ ⟨h₁, h₂, h₃, h₄, h₅, h₆⟩
  have hprices : s.prices = t.prices := by
    obtain ⟨h₁, h₂, h₃, h₄, h₅⟩ := PriceField.forall_iff.mp fun f => hget (prices f)
    exact PriceSettings.mk.injEq .. ▸ ⟨h₁, h₂, h₃, h₄, h₅⟩
  have hscheduler : s.scheduler = t.scheduler := by
    obtain ⟨h₁, h₂, h₃⟩ := CadenceField.forall_iff.mp fun f => hget (scheduler f)
    exact CadenceSettings.mk.injEq .. ▸ ⟨h₁, h₂, h₃⟩
  exact Settings.mk.injEq .. ▸ ⟨hpostgres, hchains, hprices, hscheduler, hget rpcTimeoutSecs⟩

/-! ### Variables of settings -/

/-- The variable is for the setting: it has its name, in any case. -/
def IsNamedBy (f : Scalar) (v : String) : Prop := Text.lowercase v = f.variableName

instance (f : Scalar) (v : String) : Decidable (f.IsNamedBy v) :=
  inferInstanceAs (Decidable (_ = _))

variable {entries : List (String × Document)} {text : String} {s : Settings}

/-- The text stands for the value where the setting is read. -/
def Converts (f : Scalar) (text : String) (value : f.Value) : Prop :=
  f.decoder (.text text) = .ok value

theorem Converts.unique {f : Scalar} {value value' : f.Value} (h : f.Converts text value)
    (h' : f.Converts text value') : value = value' :=
  Except.ok.inj (h.symm.trans h')

theorem IsNamedBy.variableKey? {f : Scalar} (h : f.IsNamedBy v) : variableKey? v = some f.key := by
  rw [Settings.variableKey?, h]
  cases f with
  | postgres f => cases f <;> rfl
  | prices f => cases f <;> rfl
  | scheduler f => cases f <;> rfl
  | rpcTimeoutSecs => rfl

theorem ofString?_key (f : Scalar) : Place.ofString? f.key = some (f.path.map .field) := by
  cases f with
  | postgres f => cases f <;> cbv
  | prices f => cases f <;> cbv
  | scheduler f => cases f <;> cbv
  | rpcTimeoutSecs => cbv

theorem path_injective : Function.Injective path := by
  intro f g h
  obtain ⟨hsection, hname⟩ := List.append_inj' h rfl
  rw [List.singleton_inj] at hname
  cases f with
  | postgres f =>
    cases g with
    | postgres g => exact congrArg postgres ((postgresLayout .lenient).name_injective hname)
    | _ => simp [section?] at hsection
  | prices f =>
    cases g with
    | prices g => exact congrArg prices ((priceLayout .lenient).name_injective hname)
    | _ => simp [section?] at hsection
  | scheduler f =>
    cases g with
    | scheduler g => exact congrArg scheduler ((cadenceLayout .lenient).name_injective hname)
    | _ => simp [section?] at hsection
  | rpcTimeoutSecs =>
    cases g with
    | rpcTimeoutSecs => rfl
    | _ => simp [section?] at hsection

/-- A variable is for one setting. -/
theorem IsNamedBy.unique {f g : Scalar} (hf : f.IsNamedBy v) (hg : g.IsNamedBy v) : f = g := by
  have hkey : f.key = g.key := Option.some.inj (hf.variableKey?.symm.trans hg.variableKey?)
  have hplace : f.path.map PlaceStep.field = g.path.map .field :=
    Option.some.inj (by rw [← ofString?_key, ← ofString?_key, hkey])
  exact path_injective (List.map_injective_iff.mpr (fun _ _ h => PlaceStep.field.inj h) hplace)

/-! ### A variable's text in a document -/

/-- The section of the setting, if it is in one, is no list of its fields. -/
def InTable (f : Scalar) (d : Document) : Prop :=
  ∀ outer ∈ f.section?, ∀ items, d.get? outer ≠ some (.list items)

/-- Puts a document where the setting is read from. -/
def put (f : Scalar) (d : Document) (entries : List (String × Document)) :
    List (String × Document) :=
  match f.section? with
  | some outer => putWithin outer f.name d entries
  | none => putEntry f.name d entries

theorem assign_key (f : Scalar) (text : String) (entries : List (String × Document)) :
    (table entries).assign f.key (.text text) = table (f.put (.text text) entries) := by
  rw [assign, ofString?_key, Option.getD_some, path, put]
  cases f.section? with
  | some outer => rfl
  | none => rfl

/-- A section that a text is put into is a table. -/
theorem InTable.put {g : Scalar} (h : g.InTable (table entries)) (f : Scalar) (text : String) :
    g.InTable (table (f.put (.text text) entries)) := by
  intro name hname items
  have hlookup := h name hname items
  rw [Document.get?] at hlookup ⊢
  rw [Scalar.put]
  split
  · rw [putWithin, lookup_putEntry]
    split <;> simp_all
  · rw [lookup_putEntry]
    split <;> simp_all

/-- A text in the place of a setting changes that setting and no other. -/
theorem decode_put {f : Scalar} {value : f.Value} (h : decode .lenient (table entries) = .ok s)
    (htable : f.InTable (table entries)) (hvalue : f.Converts text value) :
    decode .lenient (table (f.put (.text text) entries)) = .ok (set s f value) := by
  cases f with
  | postgres f =>
    exact (layout .lenient).decode_putWithin (f := Part.postgres) (postgresLayout .lenient) h
      (htable _ rfl) nofun hvalue
  | prices f =>
    exact (layout .lenient).decode_putWithin (f := Part.prices) (priceLayout .lenient) h
      (htable _ rfl) nofun hvalue
  | scheduler f =>
    refine (layout .lenient).decode_putWithin (f := Part.scheduler) (cadenceLayout .lenient) h
      (htable _ rfl) ?_ hvalue
    -- The default of the section is what its fields' defaults come to.
    rintro _ ⟨⟩
    rfl
  | rpcTimeoutSecs => exact (layout .lenient).decode_putEntry (f := Part.rpcTimeoutSecs) h hvalue

/-- Intervals in a list are not kept: a table with the one text comes in the place of the list. -/
theorem decode_put_of_list {f : CadenceField} {value : UInt64} {items : List Document}
    (h : decode .lenient (table entries) = .ok s)
    (hlist : entries.lookup "scheduler" = some (.list items))
    (hvalue : (scheduler f).Converts text value) :
    decode .lenient (table ((scheduler f).put (.text text) entries)) =
      .ok { s with scheduler := f.set defaultCadences value } :=
  (layout .lenient).decode_putWithin_of_list (f := Part.scheduler) (cadenceLayout .lenient) h
    hlist rfl hvalue

end Scalar

/-! ### Environments -/

/-- The variable's name begins with the prefix of our variables, in any case. -/
def Prefixed (v : String) : Prop := "pricefeed__".toList <+: (Text.lowercase v).toList

instance (v : String) : Decidable (Prefixed v) :=
  inferInstanceAs (Decidable ("pricefeed__".toList <+: (Text.lowercase v).toList))

theorem dropStart?_eq_some (h : dropStart? start cs = some rest) : start ++ rest = cs := by
  fun_induction dropStart? start cs <;> grind

theorem variableKey?_of_not_prefixed (h : ¬Prefixed v) : variableKey? v = none := by
  rw [variableKey?, Option.map_eq_none_iff]
  by_contra hsome
  obtain ⟨rest, hrest⟩ := Option.ne_none_iff_exists'.mp hsome
  exact h ⟨rest, dropStart?_eq_some hrest⟩

theorem Scalar.IsNamedBy.prefixed {f : Scalar} (h : f.IsNamedBy v) : Prefixed v := by
  by_contra hv
  cases h.variableKey?.symm.trans (variableKey?_of_not_prefixed hv)

variable {v : String × String} {environment : List (String × String)}

theorem environmentValues_of_none (h : variableKey? v.1 = none) :
    environmentValues (v :: environment) = environmentValues environment :=
  List.filterMap_cons_none (congrArg (Option.map _) h)

theorem environmentValues_of_some (h : variableKey? v.1 = some key) :
    environmentValues (v :: environment) = (key, .text v.2) :: environmentValues environment :=
  List.filterMap_cons_some (congrArg (Option.map _) h)

theorem overlay_of_not_prefixed (h : ¬Prefixed v.1) (d : Document) :
    overlay (v :: environment) d = overlay environment d := by
  rw [overlay, environmentValues_of_none (variableKey?_of_not_prefixed h), overlay]

theorem overlay_of_isNamedBy {f : Scalar} (h : f.IsNamedBy v.1)
    (entries : List (String × Document)) : overlay (v :: environment) (.table entries) =
      overlay environment (.table (f.put (.text v.2) entries)) := by
  rw [overlay, environmentValues_of_some h.variableKey?, assignAll_cons, f.assign_key, overlay]

theorem overlay_of_forall_not_prefixed (h : ∀ v ∈ environment, ¬Prefixed v.1) (d : Document) :
    overlay environment d = d := by
  induction environment with
  | nil => rfl
  | cons v environment ih =>
    obtain ⟨hv, hrest⟩ := List.forall_mem_cons.mp h
    rw [overlay_of_not_prefixed hv, ih hrest]

/-- The environment assigns texts to settings that are in no list: a variable with the prefix is
for one of them and has a text that stands for a value of it, and no two variables are for one. -/
structure Assigns (environment : List (String × String)) : Prop where
  converts : ∀ v ∈ environment, Prefixed v.1 →
    ∃ (f : Scalar) (value : f.Value), f.IsNamedBy v.1 ∧ f.Converts v.2 value
  once : environment.Pairwise fun v w => ∀ f : Scalar, f.IsNamedBy v.1 → ¬f.IsNamedBy w.1

theorem Assigns.tail (h : Assigns (v :: environment)) : Assigns environment where
  converts w hw := h.converts w (.tail _ hw)
  once := h.once.tail

/-- The second settings are the first ones with the values of the environment's variables in the
place of what the variables are for. -/
structure Replaces (environment : List (String × String)) (s s' : Settings) : Prop where
  chains : s'.chains = s.chains
  named : ∀ v ∈ environment, ∀ f : Scalar, f.IsNamedBy v.1 → f.Converts v.2 (f.get s')
  unnamed : ∀ f : Scalar, (∀ v ∈ environment, ¬f.IsNamedBy v.1) → f.get s' = f.get s

namespace Replaces

variable {s s' : Settings}

theorem nil : Replaces [] s s where
  chains := rfl
  named := nofun
  unnamed _ _ := rfl

theorem cons_of_not_prefixed (h : Replaces environment s s') (hv : ¬Prefixed v.1) :
    Replaces (v :: environment) s s' where
  chains := h.chains
  named := by
    rw [List.forall_mem_cons]
    exact ⟨fun f hf => absurd hf.prefixed hv, h.named⟩
  unnamed f hf := h.unnamed f (List.forall_mem_cons.mp hf).2

theorem cons_of_isNamedBy {f : Scalar} {value : f.Value}
    (h : Replaces environment (f.set s value) s') (hf : f.IsNamedBy v.1)
    (hvalue : f.Converts v.2 value) (honce : ∀ w ∈ environment, ¬f.IsNamedBy w.1) :
    Replaces (v :: environment) s s' where
  chains := h.chains.trans (f.chains_set s value)
  named := by
    rw [List.forall_mem_cons]
    refine ⟨fun g hg => ?_, h.named⟩
    cases hg.unique hf
    rw [h.unnamed f honce, f.get_set_self]
    exact hvalue
  unnamed g hg := by
    obtain ⟨hv, hrest⟩ := List.forall_mem_cons.mp hg
    have hne : g ≠ f := by
      rintro rfl
      exact hv hf
    rw [h.unnamed g hrest, Scalar.get_set_of_ne hne]

/-- The environment and the settings before it determine the settings after it. -/
theorem unique {s'' : Settings} (h : Replaces environment s s') (h' : Replaces environment s s'') :
    s' = s'' := by
  refine Scalar.eq_of_get (h.chains.trans h'.chains.symm) fun f => ?_
  by_cases hf : ∃ v ∈ environment, f.IsNamedBy v.1
  · obtain ⟨v, hv, hf⟩ := hf
    exact (h.named v hv f hf).unique (h'.named v hv f hf)
  · have hnone : ∀ v ∈ environment, ¬f.IsNamedBy v.1 := fun v hv hf' => hf ⟨v, hv, hf'⟩
    rw [h.unnamed f hnone, h'.unnamed f hnone]

end Replaces

/-- Variable by variable, an environment changes what it is for and nothing else. -/
theorem decode_overlay {entries : List (String × Document)} {s : Settings}
    (h : decode .lenient (.table entries) = .ok s) (henv : Assigns environment)
    (htables : ∀ v ∈ environment, ∀ f : Scalar, f.IsNamedBy v.1 → f.InTable (.table entries)) :
    ∃ s', decode .lenient (overlay environment (.table entries)) = .ok s' ∧
      Replaces environment s s' := by
  induction environment generalizing entries s with
  | nil => exact ⟨s, h, .nil⟩
  | cons v environment ih =>
    obtain ⟨htable, htables⟩ := List.forall_mem_cons.mp htables
    by_cases hv : Prefixed v.1
    · obtain ⟨f, value, hf, hvalue⟩ := henv.converts v (.head _) hv
      have honce : ∀ w ∈ environment, ¬f.IsNamedBy w.1 := fun w hw =>
        List.rel_of_pairwise_cons henv.once hw f hf
      -- The text leaves all sections tables, so the rest of the environment finds them as such.
      obtain ⟨s', hs', hreplaces⟩ := ih (Scalar.decode_put h (htable f hf) hvalue) henv.tail
        fun w hw g hg => (htables w hw g hg).put f v.2
      rw [overlay_of_isNamedBy hf]
      exact ⟨s', hs', hreplaces.cons_of_isNamedBy hf hvalue honce⟩
    · obtain ⟨s', hs', hreplaces⟩ := ih h henv.tail htables
      rw [overlay_of_not_prefixed hv]
      exact ⟨s', hs', hreplaces.cons_of_not_prefixed hv⟩

/-! ### Loading -/

/-- The entries of a settings file, the names in it taken as places in one document. -/
def documentOf (entries : List (String × Document)) : Document :=
  (Document.table []).assignAll entries

/-- The document in a settings file. -/
def fileDocument (files : List (String × String)) : Except LoadError Document :=
  documentOf <$> readFile files

theorem ofEntries_eq_ok {entries : List (String × Document)} {s : Settings} :
    ofEntries entries environment = .ok s ↔
      decode .lenient (overlay environment (documentOf entries)) = .ok s :=
  Except.mapError_eq_ok

theorem load_eq_ok {files : List (String × String)} {s : Settings} :
    load files environment = .ok s ↔
      ∃ entries, readFile files = .ok entries ∧ ofEntries entries environment = .ok s :=
  Except.do_bind_eq_ok

/-- Variables that are not ours have no effect. -/
theorem ofEntries_of_forall_not_prefixed (h : ∀ v ∈ environment, ¬Prefixed v.1)
    (entries : List (String × Document)) :
    ofEntries entries environment = ofEntries entries [] := by
  rw [ofEntries, overlay_of_forall_not_prefixed h]
  rfl

theorem documentOf_eq_table (entries : List (String × Document)) :
    ∃ named, documentOf entries = .table named :=
  assignAll_table entries []

/-- The environment goes over the entries of a file, whatever format they were read from. -/
theorem ofEntries_replaces {plain : List (String × String)} {entries : List (String × Document)}
    {s : Settings} (hplain : ∀ v ∈ plain, ¬Prefixed v.1) (henv : Assigns environment)
    (h : ofEntries entries plain = .ok s)
    (htables : ∀ v ∈ environment, ∀ f : Scalar, f.IsNamedBy v.1 → f.InTable (documentOf entries)) :
    ∃ s', ofEntries entries environment = .ok s' ∧ Replaces environment s s' := by
  rw [ofEntries_of_forall_not_prefixed hplain] at h
  have hdecode := ofEntries_eq_ok.mp h
  obtain ⟨named, hnamed⟩ := documentOf_eq_table entries
  rw [hnamed] at hdecode htables
  obtain ⟨s', hs', hreplaces⟩ := decode_overlay hdecode henv htables
  exact ⟨s', ofEntries_eq_ok.mpr (hnamed ▸ hs'), hreplaces⟩

/-! ### A file with a list for a section -/

theorem readFile_json {text : String} {entries : List (String × Document)}
    (hmark : withoutByteOrderMark text = text) (hread : Json.read text = .ok (.table entries)) :
    readFile [("config.json", text)] = .ok entries := by
  have hfind : findFile? [("config.json", text)] = some (text, .json) := rfl
  rw [readFile, hfind]
  simp only [hmark, FileFormat.read, hread]
  rfl

/-- The intervals are written as a list, the other sections as tables. -/
def listedText : String :=
  "\x7b\"postgres\": \x7b\"host\": \"localhost\", \"port\": 5432, \"user\": \"postgres\",
    \"password\": \"postgres\", \"database\": \"pricefeed\"\x7d,
  \"chains\": [\x7b\"name\": \"mainnet\", \"chain_id\": 1, \"rpc_url\": \"http://x\"\x7d],
  \"prices\": \x7b\"chain\": \"mainnet\",
    \"primary_oracle\": \"0x5f4eC3Df9cbd43714FE2740f5E3616155c5b8419\",
    \"reference_oracle\": \"0x14e613ac84a31f709eadbdf89c6cc390fdc9540a\",
    \"pool\": \"0xa1e5dc01359c2920c096f0091fc7f0bf69812ca7\"\x7d,
  \"scheduler\": [5, 6, 7]\x7d"

def listedFiles : List (String × String) := [("config.json", listedText)]

def listedEntries : List (String × Document) := [
  ("postgres", .table [("host", .text "localhost"), ("port", .integer 5432),
    ("user", .text "postgres"), ("password", .text "postgres"), ("database", .text "pricefeed")]),
  ("chains", .list [.table [("name", .text "mainnet"), ("chain_id", .integer 1),
    ("rpc_url", .text "http://x")]]),
  ("prices", .table [("chain", .text "mainnet"),
    ("primary_oracle", .text "0x5f4eC3Df9cbd43714FE2740f5E3616155c5b8419"),
    ("reference_oracle", .text "0x14e613ac84a31f709eadbdf89c6cc390fdc9540a"),
    ("pool", .text "0xa1e5dc01359c2920c096f0091fc7f0bf69812ca7")]),
  ("scheduler", .list [.integer 5, .integer 6, .integer 7])]

def listed : Settings where
  postgres := ⟨"localhost", 5432, "postgres", "postgres", "pricefeed", defaultPoolSize⟩
  chains := [⟨"mainnet", 1, "http://x", none, 0, defaultHeadMode, true, none, [], []⟩]
  prices := {
    chain := "mainnet"
    primaryOracle := "0x5f4eC3Df9cbd43714FE2740f5E3616155c5b8419"
    referenceOracle := "0x14e613ac84a31f709eadbdf89c6cc390fdc9540a"
    pool := "0xa1e5dc01359c2920c096f0091fc7f0bf69812ca7"
    fallbackTokenCents := defaultFallbackTokenCents }
  scheduler := ⟨5, 6, 7⟩
  rpcTimeoutSecs := defaultRpcTimeoutSecs

set_option maxRecDepth 2000 in
theorem readFile_listed : readFile listedFiles = .ok listedEntries := by
  -- Evaluating the characters of so long a text takes long; they are read off the literal instead.
  have hchars : listedText.toList = _ := String.toList_ofList
  have hmark : withoutByteOrderMark listedText = listedText := by
    rw [withoutByteOrderMark, hchars]
    rfl
  have hread : Json.read listedText = .ok (.table listedEntries) := by
    rw [Json.read, hchars]
    rfl
  exact readFile_json hmark hread

theorem documentOf_listed : documentOf listedEntries = .table listedEntries := by
  have hnames : ∀ value ∈ listedEntries, Place.ofString? value.1 = some [.field value.1] := by
    simp only [listedEntries, List.forall_mem_cons]
    exact ⟨by cbv, by cbv, by cbv, by cbv, nofun⟩
  exact assignAll_of_names hnames []

theorem fileDocument_listed : fileDocument listedFiles = .ok (.table listedEntries) := by
  rw [fileDocument, readFile_listed]
  exact congrArg Except.ok documentOf_listed

theorem decode_listed : decode .lenient (.table listedEntries) = .ok listed := rfl

theorem ofEntries_listed : ofEntries listedEntries [] = .ok listed :=
  ofEntries_eq_ok.mpr (documentOf_listed ▸ decode_listed)

theorem load_listed : load listedFiles [] = .ok listed :=
  load_eq_ok.mpr ⟨_, readFile_listed, ofEntries_listed⟩

/-! ### The environment over a settings file -/

/-- The environment goes over the settings file value by value: if the settings can be loaded
without variables of ours, they can be loaded with them, and all that changes is what the variables
are for. It is so for the entries of a file in any format, and for the files that are read here. A
section that a variable is for must not be written as a list of its fields. -/
theorem environment_replaces_named_settings {plain environment : List (String × String)}
    {s : Settings} (hplain : ∀ v ∈ plain, ¬Prefixed v.1) (henv : Assigns environment) :
    (∀ entries : List (String × Document), ofEntries entries plain = .ok s →
      (∀ v ∈ environment, ∀ f : Scalar, f.IsNamedBy v.1 → f.InTable (documentOf entries)) →
      ∃ s', ofEntries entries environment = .ok s' ∧ Replaces environment s s') ∧
    ∀ files : List (String × String), load files plain = .ok s →
      (∀ v ∈ environment, ∀ f : Scalar, f.IsNamedBy v.1 →
        ∀ d, fileDocument files = .ok d → f.InTable d) →
      ∃ s', load files environment = .ok s' ∧ Replaces environment s s' := by
  refine ⟨fun entries => ofEntries_replaces hplain henv, fun files hload htables => ?_⟩
  obtain ⟨entries, hread, hentries⟩ := load_eq_ok.mp hload
  have hfile : fileDocument files = .ok (documentOf entries) := by
    rw [fileDocument, hread]
    rfl
  obtain ⟨s', hs', hreplaces⟩ := ofEntries_replaces hplain henv hentries fun v hv f hf =>
    htables v hv f hf _ hfile
  exact ⟨s', load_eq_ok.mpr ⟨_, hread, hs'⟩, hreplaces⟩

/-- The sections that these variables are for are tables. -/
def sampleEnvironment : List (String × String) :=
  [("PRICEFEED__POSTGRES__PORT", "6543"), ("HOME", "/root"),
    ("PriceFeed__Prices__Fallback_Token_Cents", "85")]

theorem sampleEnvironment_replaces :
    (∀ v ∈ [("HOME", "/root")], ¬Prefixed v.1) ∧ Assigns sampleEnvironment ∧
    (ofEntries listedEntries [("HOME", "/root")] = .ok listed ∧
      (∀ v ∈ sampleEnvironment, ∀ f : Scalar, f.IsNamedBy v.1 →
        f.InTable (documentOf listedEntries)) ∧
      ∃ s', ofEntries listedEntries sampleEnvironment = .ok s' ∧
        Replaces sampleEnvironment listed s') ∧
    load listedFiles [("HOME", "/root")] = .ok listed ∧
    (∀ v ∈ sampleEnvironment, ∀ f : Scalar, f.IsNamedBy v.1 →
      ∀ d, fileDocument listedFiles = .ok d → f.InTable d) ∧
    ∃ s', load listedFiles sampleEnvironment = .ok s' ∧
      Replaces sampleEnvironment listed s' := by
  have hhome : ¬Prefixed "HOME" := by decide
  have hport : (Scalar.postgres .port).IsNamedBy "PRICEFEED__POSTGRES__PORT" := by decide
  have hfallback : (Scalar.prices .fallbackTokenCents).IsNamedBy
      "PriceFeed__Prices__Fallback_Token_Cents" := by decide
  have hplain : ∀ v ∈ [("HOME", "/root")], ¬Prefixed v.1 := List.forall_mem_singleton.mpr hhome
  have hentries : ofEntries listedEntries [("HOME", "/root")] = .ok listed :=
    (ofEntries_of_forall_not_prefixed hplain listedEntries).trans ofEntries_listed
  have hload : load listedFiles [("HOME", "/root")] = .ok listed :=
    load_eq_ok.mpr ⟨_, readFile_listed, hentries⟩
  have henv : Assigns sampleEnvironment := by
    constructor
    · simp only [sampleEnvironment, List.forall_mem_cons]
      exact ⟨fun _ => ⟨.postgres .port, (6543 : UInt16), hport, rfl⟩, fun h => absurd h hhome,
        fun _ => ⟨.prices .fallbackTokenCents, "85", hfallback, rfl⟩, nofun⟩
    · have hother : ∀ f : Scalar, f.IsNamedBy "PRICEFEED__POSTGRES__PORT" →
          ¬f.IsNamedBy "PriceFeed__Prices__Fallback_Token_Cents" := fun f hf hf' => by
        cases hf.unique hport
        cases hf'.unique hfallback
      simp only [sampleEnvironment, List.pairwise_cons, List.forall_mem_cons]
      exact ⟨⟨fun f _ hf => hhome hf.prefixed, hother, nofun⟩,
        ⟨fun f hf => absurd hf.prefixed hhome, nofun⟩, nofun, .nil⟩
  have htables : ∀ v ∈ sampleEnvironment, ∀ f : Scalar, f.IsNamedBy v.1 →
      f.InTable (documentOf listedEntries) := by
    rw [documentOf_listed]
    simp only [sampleEnvironment, List.forall_mem_cons]
    refine ⟨?port, fun f hf => absurd hf.prefixed hhome, ?fallback, nofun⟩
    case port =>
      intro f hf
      cases hf.unique hport
      rintro _ ⟨⟩ _ ⟨⟩
    case fallback =>
      intro f hf
      cases hf.unique hfallback
      rintro _ ⟨⟩ _ ⟨⟩
  have hfile : ∀ v ∈ sampleEnvironment, ∀ f : Scalar, f.IsNamedBy v.1 →
      ∀ d, fileDocument listedFiles = .ok d → f.InTable d := by
    intro v hv f hf d hd
    cases fileDocument_listed.symm.trans hd
    exact documentOf_listed ▸ htables v hv f hf
  have h := environment_replaces_named_settings (s := listed) hplain henv
  exact ⟨hplain, henv, ⟨hentries, htables, h.1 _ hentries htables⟩, hload, hfile,
    h.2 _ hload hfile⟩

def intervalEnvironment : List (String × String) :=
  [("PRICEFEED__SCHEDULER__HEAD_INTERVAL_SECS", "9")]

/-- A variable for an interval puts a table in the place of the list, and the other intervals of
the list are gone. -/
theorem listed_section_loses_intervals :
    load listedFiles [] = .ok listed ∧ Assigns intervalEnvironment ∧
    ¬∃ s', load listedFiles intervalEnvironment = .ok s' ∧
      Replaces intervalEnvironment listed s' := by
  have hhead : (Scalar.scheduler .head).IsNamedBy "PRICEFEED__SCHEDULER__HEAD_INTERVAL_SECS" := by
    decide
  have hvalue : (Scalar.scheduler .head).Converts "9" (9 : UInt64) := rfl
  have henv : Assigns intervalEnvironment := by
    constructor
    · simp only [intervalEnvironment, List.forall_mem_singleton]
      exact fun _ => ⟨.scheduler .head, _, hhead, hvalue⟩
    · exact List.pairwise_singleton _ _
  have hoverlay : overlay intervalEnvironment (.table listedEntries) =
      overlay [] (.table ((Scalar.scheduler .head).put (.text "9") listedEntries)) :=
    overlay_of_isNamedBy (v := (_, "9")) hhead listedEntries
  have hdecode : decode .lenient (overlay intervalEnvironment (.table listedEntries)) =
      .ok { listed with scheduler := ⟨9, 20, 60⟩ } :=
    hoverlay ▸ Scalar.decode_put_of_list decode_listed rfl hvalue
  have hload : load listedFiles intervalEnvironment =
      .ok { listed with scheduler := ⟨9, 20, 60⟩ } :=
    load_eq_ok.mpr ⟨_, readFile_listed, ofEntries_eq_ok.mpr (documentOf_listed ▸ hdecode)⟩
  refine ⟨load_listed, henv, ?_⟩
  rintro ⟨s', hs', hreplaces⟩
  have hscrape : s'.scheduler.scrape = listed.scheduler.scrape :=
    hreplaces.unnamed (.scheduler .scrape) fun v hv hf => by
      cases List.mem_singleton.mp hv
      cases hf.unique hhead
  cases hs'.symm.trans hload
  exact absurd hscrape (by decide)

end Settings

end ChainIngest
