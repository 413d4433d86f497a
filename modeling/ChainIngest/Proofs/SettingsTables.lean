import Mathlib.Logic.Function.Basic
import ChainIngest.Proofs.Acceptance
import ChainIngest.Settings.Decoding

/-!
Structures in tables. A structure is read from a table field by field (`Document.Layout`), so an
entry that is put into the table changes the field of its name and no other
(`Document.Layout.decode_putEntry`), also in a table within the table
(`Document.Layout.decode_putWithin`).
-/

namespace ChainIngest

theorem Except.do_bind_eq_ok {ε α β : Type} {x : Except ε α} {f : α → Except ε β} {b : β} :
    (x >>= f) = .ok b ↔ ∃ a, x = .ok a ∧ f a = .ok b :=
  Except.bind_eq_ok

namespace Document

/-! ### Entries -/

theorem lookup_putEntry (key : String) (value : Document) (k : String)
    (entries : List (String × Document)) :
    (putEntry key value entries).lookup k = if k = key then some value else entries.lookup k := by
  fun_induction putEntry key value entries with
  | case1 => by_cases h : k = key <;> grind
  | case2 => grind
  | case3 => grind

/-- The field with a name, whatever its place: places are for lists. -/
def entry? (entries : List (String × Document)) (name : String) (decode : Decoder α) :
    Except DecodeError (Option α) :=
  field? (.table entries) 0 name decode

/-- What the field of a structure is read as from the entries of a table. -/
def Reads (entries : List (String × Document)) (name : String) (decode : Decoder α)
    (default? : Option α) (value : α) : Prop :=
  match entries.lookup name with
  | some d => decode d = .ok value
  | none => default? = some value

section Reads

variable {entries : List (String × Document)} {decode : Decoder α} {default? : Option α} {value : α}

theorem field?_table (index : Nat) :
    field? (.table entries) index name decode = entry? entries name decode := rfl

theorem reads_iff_required :
    Reads entries name decode none value ↔ entry? entries name decode = .ok (some value) := by
  rw [Reads, entry?, field?]
  cases entries.lookup name with
  | none => simp
  | some d => cases h : decode d <;> simp [h, Except.mapError, Functor.map, Except.map]

theorem reads_iff_default {default : α} : Reads entries name decode (some default) value ↔
    ∃ found, entry? entries name decode = .ok found ∧ found.getD default = value := by
  rw [Reads, entry?, field?]
  cases entries.lookup name with
  | none => simp
  | some d => cases h : decode d <;> simp [h, Except.mapError, Functor.map, Except.map]

theorem required_eq_ok {found : Option α} :
    required (.table entries) name found = .ok value ↔ found = some value := by
  cases found <;> simp [required]

theorem reads_putEntry (h : decode d = .ok value) :
    Reads (putEntry name d entries) name decode default? value := by
  rw [Reads, lookup_putEntry, if_pos rfl]
  exact h

theorem reads_putEntry_of_ne (h : name ≠ key) :
    Reads (putEntry key d entries) name decode default? value ↔
      Reads entries name decode default? value := by
  rw [Reads, lookup_putEntry, if_neg h, Reads]

end Reads

/-! ### Structures -/

theorem checkShape_eq_ok {δ : Dialect} (h : checkShape δ fieldCount d = .ok ()) :
    (∃ entries, d = .table entries) ∨ ∃ items, d = .list items := by
  cases d with
  | table entries => exact .inl ⟨entries, rfl⟩
  | list items => exact .inr ⟨items, rfl⟩
  | _ => cases h

/-- How a structure is read from tables: each of its fields is read, by a decoder of its own, from
the entry with its name, and some fields have defaults. -/
structure Layout {σ : Type} (decode : Decoder σ) {Field : Type} [DecidableEq Field]
    (Value : Field → Type) where
  name : Field → String
  decoder : (f : Field) → Decoder (Value f)
  default? : (f : Field) → Option (Value f)
  get : σ → (f : Field) → Value f
  set : σ → (f : Field) → Value f → σ
  name_injective : Function.Injective name
  get_set : ∀ s f value, get (set s f value) = Function.update (get s) f value
  decode_table : ∀ entries s, decode (.table entries) = .ok s ↔
    ∀ f, Reads entries (name f) (decoder f) (default? f) (get s f)
  shape : ∀ d s, decode d = .ok s → (∃ entries, d = .table entries) ∨ ∃ items, d = .list items

/-- The entries of a table within a table, if it is there. -/
def entriesAt (entries : List (String × Document)) (name : String) : List (String × Document) :=
  ((entries.lookup name).getD .null).entries

/-- Puts an entry into a table within a table. -/
def putWithin (table name : String) (d : Document) (entries : List (String × Document)) :
    List (String × Document) :=
  putEntry table (.table (putEntry name d (entriesAt entries table))) entries

namespace Layout

variable {σ Field : Type} [DecidableEq Field] {Value : Field → Type} {decode : Decoder σ}
variable {entries : List (String × Document)} {s : σ} (L : Layout decode Value)

theorem get_set_self (s : σ) (f : Field) (value : Value f) : L.get (L.set s f value) f = value := by
  rw [L.get_set, Function.update_self]

theorem get_set_of_ne {f g : Field} (h : g ≠ f) (s : σ) (value : Value f) :
    L.get (L.set s f value) g = L.get s g := by
  rw [L.get_set, Function.update_of_ne h]

/-- An entry changes the field of its name and no other. -/
theorem decode_putEntry {f : Field} {value : Value f} (h : decode (.table entries) = .ok s)
    (hvalue : L.decoder f d = .ok value) :
    decode (.table (putEntry (L.name f) d entries)) = .ok (L.set s f value) := by
  rw [L.decode_table] at h ⊢
  intro g
  by_cases hg : g = f
  · subst hg
    rw [L.get_set_self]
    exact reads_putEntry hvalue
  · rw [L.get_set_of_ne hg, reads_putEntry_of_ne fun hname => hg (L.name_injective hname)]
    exact h g

/-- An entry in a table within a table changes one field of one field. A table that is not there is
made, and its other fields have their defaults. -/
theorem decode_putWithin {f : Field} {Inner : Type} [DecidableEq Inner] {Value' : Inner → Type}
    (M : Layout (L.decoder f) Value') {g : Inner} {value : Value' g}
    (h : decode (.table entries) = .ok s)
    (hlist : ∀ items, entries.lookup (L.name f) ≠ some (.list items))
    (hdefault : ∀ t ∈ L.default? f, L.decoder f (.table []) = .ok t)
    (hvalue : M.decoder g d = .ok value) :
    decode (.table (putWithin (L.name f) (M.name g) d entries)) =
      .ok (L.set s f (M.set (L.get s f) g value)) := by
  refine L.decode_putEntry h (M.decode_putEntry ?_ hvalue)
  have hread : Reads entries (L.name f) (L.decoder f) (L.default? f) (L.get s f) :=
    (L.decode_table entries s).mp h f
  rw [Reads] at hread
  rw [entriesAt]
  cases hlookup : entries.lookup (L.name f) with
  | none =>
    rw [hlookup] at hread
    exact hdefault _ hread
  | some d =>
    rw [hlookup] at hread
    rcases M.shape d _ hread with ⟨inner, rfl⟩ | ⟨items, rfl⟩
    · exact hread
    · exact absurd hlookup (hlist items)

/-- A list in the place of a table gives way to a table with the one entry. -/
theorem decode_putWithin_of_list {f : Field} {Inner : Type} [DecidableEq Inner]
    {Value' : Inner → Type} (M : Layout (L.decoder f) Value') {g : Inner} {t : Value f}
    {value : Value' g} {items : List Document} (h : decode (.table entries) = .ok s)
    (hlist : entries.lookup (L.name f) = some (.list items))
    (hempty : L.decoder f (.table []) = .ok t) (hvalue : M.decoder g d = .ok value) :
    decode (.table (putWithin (L.name f) (M.name g) d entries)) =
      .ok (L.set s f (M.set t g value)) := by
  have hentries : entriesAt entries (L.name f) = [] := by
    rw [entriesAt, hlist]
    rfl
  rw [putWithin, hentries]
  exact L.decode_putEntry h (M.decode_putEntry hempty hvalue)

end Layout

end Document

namespace Settings

open Document

variable (δ : Dialect)

/-! ### The sections of the settings -/

inductive PostgresField where
  | host
  | port
  | user
  | password
  | database
  | poolSize
  deriving DecidableEq

namespace PostgresField

def name : PostgresField → String
  | host => "host"
  | port => "port"
  | user => "user"
  | password => "password"
  | database => "database"
  | poolSize => "pool_size"

def Value : PostgresField → Type
  | host | user | password | database => String
  | port => UInt16
  | poolSize => UInt64

def get (p : PostgresSettings) : (f : PostgresField) → f.Value
  | host => p.host
  | port => p.port
  | user => p.user
  | password => p.password
  | database => p.database
  | poolSize => p.poolSize

def set (p : PostgresSettings) : (f : PostgresField) → f.Value → PostgresSettings
  | host, value => { p with host := value }
  | port, value => { p with port := value }
  | user, value => { p with user := value }
  | password, value => { p with password := value }
  | database, value => { p with database := value }
  | poolSize, value => { p with poolSize := value }

def decoder : (f : PostgresField) → Decoder f.Value
  | host | user | password | database => δ.text
  | port => δ.word16
  | poolSize => δ.word64

def default? : (f : PostgresField) → Option f.Value
  | poolSize => some defaultPoolSize
  | host | port | user | password | database => none

theorem forall_iff {p : PostgresField → Prop} :
    (∀ f, p f) ↔ p host ∧ p port ∧ p user ∧ p password ∧ p database ∧ p poolSize :=
  ⟨fun h => ⟨h _, h _, h _, h _, h _, h _⟩, fun h f => by cases f <;> simp [h]⟩

end PostgresField

theorem decodePostgres_table {entries : List (String × Document)} {p : PostgresSettings} :
    decodePostgres δ (.table entries) = .ok p ↔
      Reads entries "host" δ.text none p.host ∧
      Reads entries "port" δ.word16 none p.port ∧
      Reads entries "user" δ.text none p.user ∧
      Reads entries "password" δ.text none p.password ∧
      Reads entries "database" δ.text none p.database ∧
      Reads entries "pool_size" δ.word64 (some defaultPoolSize) p.poolSize := by
  cases p
  simp only [decodePostgres, checkShape, field?_table, Except.do_bind_eq_ok, required_eq_ok, pure,
    Except.pure, Except.ok.injEq, PostgresSettings.mk.injEq, reads_iff_required, reads_iff_default]
  grind

def postgresLayout : Layout (decodePostgres δ) PostgresField.Value where
  name := PostgresField.name
  decoder := PostgresField.decoder δ
  default? := PostgresField.default?
  get := PostgresField.get
  set := PostgresField.set
  name_injective f g h := by cases f <;> cases g <;> simp_all [PostgresField.name]
  get_set s f value := by
    funext g
    cases f <;> cases g <;> rfl
  decode_table entries s := by
    rw [PostgresField.forall_iff]
    exact decodePostgres_table δ
  shape d s h := by
    obtain ⟨_, hshape, -⟩ := Except.do_bind_eq_ok.mp h
    exact checkShape_eq_ok hshape

inductive PriceField where
  | chain
  | primaryOracle
  | referenceOracle
  | pool
  | fallbackTokenCents
  deriving DecidableEq

namespace PriceField

def name : PriceField → String
  | chain => "chain"
  | primaryOracle => "primary_oracle"
  | referenceOracle => "reference_oracle"
  | pool => "pool"
  | fallbackTokenCents => "fallback_token_cents"

def get (p : PriceSettings) : PriceField → String
  | chain => p.chain
  | primaryOracle => p.primaryOracle
  | referenceOracle => p.referenceOracle
  | pool => p.pool
  | fallbackTokenCents => p.fallbackTokenCents

def set (p : PriceSettings) : PriceField → String → PriceSettings
  | chain, value => { p with chain := value }
  | primaryOracle, value => { p with primaryOracle := value }
  | referenceOracle, value => { p with referenceOracle := value }
  | pool, value => { p with pool := value }
  | fallbackTokenCents, value => { p with fallbackTokenCents := value }

def default? : PriceField → Option String
  | fallbackTokenCents => some defaultFallbackTokenCents
  | chain | primaryOracle | referenceOracle | pool => none

theorem forall_iff {p : PriceField → Prop} : (∀ f, p f) ↔
    p chain ∧ p primaryOracle ∧ p referenceOracle ∧ p pool ∧ p fallbackTokenCents :=
  ⟨fun h => ⟨h _, h _, h _, h _, h _⟩, fun h f => by cases f <;> simp [h]⟩

end PriceField

theorem decodePrices_table {entries : List (String × Document)} {p : PriceSettings} :
    decodePrices δ (.table entries) = .ok p ↔
      Reads entries "chain" δ.text none p.chain ∧
      Reads entries "primary_oracle" δ.text none p.primaryOracle ∧
      Reads entries "reference_oracle" δ.text none p.referenceOracle ∧
      Reads entries "pool" δ.text none p.pool ∧
      Reads entries "fallback_token_cents" δ.text (some defaultFallbackTokenCents)
        p.fallbackTokenCents := by
  cases p
  simp only [decodePrices, checkShape, field?_table, Except.do_bind_eq_ok, required_eq_ok, pure,
    Except.pure, Except.ok.injEq, PriceSettings.mk.injEq, reads_iff_required, reads_iff_default]
  grind

def priceLayout : Layout (decodePrices δ) fun _ : PriceField => String where
  name := PriceField.name
  decoder _ := δ.text
  default? := PriceField.default?
  get := PriceField.get
  set := PriceField.set
  name_injective f g h := by cases f <;> cases g <;> simp_all [PriceField.name]
  get_set s f value := by
    funext g
    cases f <;> cases g <;> rfl
  decode_table entries s := by
    rw [PriceField.forall_iff]
    exact decodePrices_table δ
  shape d s h := by
    obtain ⟨_, hshape, -⟩ := Except.do_bind_eq_ok.mp h
    exact checkShape_eq_ok hshape

inductive CadenceField where
  | head
  | scrape
  | price
  deriving DecidableEq

namespace CadenceField

def name : CadenceField → String
  | head => "head_interval_secs"
  | scrape => "scrape_interval_secs"
  | price => "price_interval_secs"

def get (c : CadenceSettings) : CadenceField → UInt64
  | head => c.head
  | scrape => c.scrape
  | price => c.price

def set (c : CadenceSettings) : CadenceField → UInt64 → CadenceSettings
  | head, value => { c with head := value }
  | scrape, value => { c with scrape := value }
  | price, value => { c with price := value }

theorem forall_iff {p : CadenceField → Prop} : (∀ f, p f) ↔ p head ∧ p scrape ∧ p price :=
  ⟨fun h => ⟨h _, h _, h _⟩, fun h f => by cases f <;> simp [h]⟩

end CadenceField

theorem decodeCadences_table {entries : List (String × Document)} {c : CadenceSettings} :
    decodeCadences δ (.table entries) = .ok c ↔
      Reads entries "head_interval_secs" δ.word64 (some defaultCadences.head) c.head ∧
      Reads entries "scrape_interval_secs" δ.word64 (some defaultCadences.scrape) c.scrape ∧
      Reads entries "price_interval_secs" δ.word64 (some defaultCadences.price) c.price := by
  cases c
  simp only [decodeCadences, checkShape, field?_table, Except.do_bind_eq_ok, pure, Except.pure,
    Except.ok.injEq, CadenceSettings.mk.injEq, reads_iff_default]
  grind

def cadenceLayout : Layout (decodeCadences δ) fun _ : CadenceField => UInt64 where
  name := CadenceField.name
  decoder _ := δ.word64
  default? f := some (f.get defaultCadences)
  get := CadenceField.get
  set := CadenceField.set
  name_injective f g h := by cases f <;> cases g <;> simp_all [CadenceField.name]
  get_set s f value := by
    funext g
    cases f <;> cases g <;> rfl
  decode_table entries s := by
    rw [CadenceField.forall_iff]
    exact decodeCadences_table δ
  shape d s h := by
    obtain ⟨_, hshape, -⟩ := Except.do_bind_eq_ok.mp h
    exact checkShape_eq_ok hshape

/-! ### The settings -/

/-- The entries of a settings file. -/
inductive Part where
  | postgres
  | chains
  | prices
  | scheduler
  | rpcTimeoutSecs
  deriving DecidableEq

namespace Part

def name : Part → String
  | postgres => "postgres"
  | chains => "chains"
  | prices => "prices"
  | scheduler => "scheduler"
  | rpcTimeoutSecs => "rpc_timeout_secs"

def Value : Part → Type
  | postgres => PostgresSettings
  | chains => List ChainSettings
  | prices => PriceSettings
  | scheduler => CadenceSettings
  | rpcTimeoutSecs => UInt64

def get (s : Settings) : (f : Part) → f.Value
  | postgres => s.postgres
  | chains => s.chains
  | prices => s.prices
  | scheduler => s.scheduler
  | rpcTimeoutSecs => s.rpcTimeoutSecs

def set (s : Settings) : (f : Part) → f.Value → Settings
  | postgres, value => { s with postgres := value }
  | chains, value => { s with chains := value }
  | prices, value => { s with prices := value }
  | scheduler, value => { s with scheduler := value }
  | rpcTimeoutSecs, value => { s with rpcTimeoutSecs := value }

def decoder : (f : Part) → Decoder f.Value
  | postgres => decodePostgres δ
  | chains => listOf (decodeChain δ)
  | prices => decodePrices δ
  | scheduler => decodeCadences δ
  | rpcTimeoutSecs => δ.word64

def default? : (f : Part) → Option f.Value
  | scheduler => some defaultCadences
  | rpcTimeoutSecs => some defaultRpcTimeoutSecs
  | postgres | chains | prices => none

theorem forall_iff {p : Part → Prop} :
    (∀ f, p f) ↔ p postgres ∧ p chains ∧ p prices ∧ p scheduler ∧ p rpcTimeoutSecs :=
  ⟨fun h => ⟨h _, h _, h _, h _, h _⟩, fun h f => by cases f <;> simp [h]⟩

end Part

theorem decode_table {entries : List (String × Document)} {s : Settings} :
    decode δ (.table entries) = .ok s ↔
      Reads entries "postgres" (decodePostgres δ) none s.postgres ∧
      Reads entries "chains" (listOf (decodeChain δ)) none s.chains ∧
      Reads entries "prices" (decodePrices δ) none s.prices ∧
      Reads entries "scheduler" (decodeCadences δ) (some defaultCadences) s.scheduler ∧
      Reads entries "rpc_timeout_secs" δ.word64 (some defaultRpcTimeoutSecs) s.rpcTimeoutSecs := by
  cases s
  simp only [decode, checkShape, field?_table, Except.do_bind_eq_ok, required_eq_ok, pure,
    Except.pure, Except.ok.injEq, Settings.mk.injEq, reads_iff_required, reads_iff_default]
  grind

def layout : Layout (decode δ) Part.Value where
  name := Part.name
  decoder := Part.decoder δ
  default? := Part.default?
  get := Part.get
  set := Part.set
  name_injective f g h := by cases f <;> cases g <;> simp_all [Part.name]
  get_set s f value := by
    funext g
    cases f <;> cases g <;> rfl
  decode_table entries s := by
    rw [Part.forall_iff]
    exact decode_table δ
  shape d s h := by
    obtain ⟨_, hshape, -⟩ := Except.do_bind_eq_ok.mp h
    exact checkShape_eq_ok hshape

end Settings

end ChainIngest
