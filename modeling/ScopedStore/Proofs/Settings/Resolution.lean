import Mathlib
import ScopedStore.Settings.Config

/-! Where each setting comes from. A variable that is misused decides the outcome before any file is
looked at, the first one in reading order if there are several. Otherwise each variable that is set
takes the place of one setting, and all other settings are those of the file or the defaults. -/
namespace ScopedStore.Settings

/-- The order in which the variables are read. -/
def Variable.order : List Variable :=
  [.config, .path, .maxSize, .maxValue, .limit, .uri, .token]

theorem Variable.mem_order (v : Variable) : v ∈ order := by cases v <;> decide

/-- The greatest number that a variable can hold, if it holds a number. -/
def Variable.greatest? : Variable → Option Nat
  | maxSize => some (2 ^ 64 - 1)
  | maxValue | limit => some (2 ^ 32 - 1)
  | config | path | uri | token => none

namespace Overrides

/-- The text is a row of digits, with at most one plus sign before them, for this number. -/
def Denotes (text : String) (number : Nat) : Prop :=
  ∃ digits : List Char, digits ≠ [] ∧ (∀ c ∈ digits, c.isDigit = true) ∧
    (text.toList = digits ∨ text.toList = '+' :: digits) ∧ Decimal.value digits = number

def textOf (environment : Environment) (v : Variable) : Option String :=
  (environment v).bind Text.ofBytes?

/-- An environment with these variables and no others. -/
def ofTexts (texts : List (Variable × String)) : Environment :=
  fun v => (texts.lookup v).map Text.toBytes

/-- A variable is set to what it must not be; the rule says what it should have been. -/
inductive Misuse (environment : Environment) (v : Variable) : String → Prop where
  | undecodable {bytes : Text.Bytes} (given : environment v = some bytes)
      (bad : Text.ofBytes? bytes = none) : Misuse environment v "must be valid UTF-8"
  | blank {text : String} (given : textOf environment v = some text)
      (bad : Text.isBlankText text = true) : Misuse environment v "must not be empty"
  | unreadable {text : String} {greatest : Nat} (given : textOf environment v = some text)
      (written : Text.isBlankText text = false) (number : v.greatest? = some greatest)
      (bad : ∀ n ≤ greatest, ¬ Denotes (Text.trim text) n) :
      Misuse environment v "must be an unsigned integer"

/-- The variable is misused, and none that is read before it. -/
def FirstMisuse (environment : Environment) (v : Variable) (rule : String) : Prop :=
  ∃ before after, Variable.order = before ++ v :: after ∧
    (∀ earlier ∈ before, ∀ rule, ¬ Misuse environment earlier rule) ∧ Misuse environment v rule

/-- What is left of a text without the plus sign that it may start with. -/
private def unsign : List Char → List Char
  | '+' :: digits => digits
  | digits => digits

private theorem eq_unsign (cs : List Char) : cs = unsign cs ∨ cs = '+' :: unsign cs := by
  unfold unsign
  split
  · exact .inr rfl
  · exact .inl rfl

private theorem unsign_digits {digits : List Char} (h : ∀ c ∈ digits, c.isDigit = true) :
    unsign digits = digits := by
  unfold unsign
  split
  next rest =>
    have hplus : '+'.isDigit = true := h '+' List.mem_cons_self
    exact absurd hplus (by decide)
  · rfl

theorem unsigned?_eq_some_iff {greatest n : Nat} {text : String} :
    unsigned? greatest text = some n ↔ Denotes text n ∧ n ≤ greatest := by
  have hread : unsigned? greatest text =
      if unsign text.toList ≠ [] ∧ Decimal.areDigits (unsign text.toList) = true ∧
        Decimal.value (unsign text.toList) ≤ greatest then
        some (Decimal.value (unsign text.toList)) else none := rfl
  rw [hread, Option.ite_none_right_eq_some, Option.some.injEq]
  constructor
  · rintro ⟨⟨hne, hdigits, hle⟩, rfl⟩
    exact ⟨⟨_, hne, List.all_eq_true.mp hdigits, eq_unsign text.toList, rfl⟩, hle⟩
  · rintro ⟨⟨digits, hne, hdigits, hsigned, rfl⟩, hle⟩
    have hunsigned : unsign text.toList = digits := by
      rcases hsigned with hplain | hplus
      · rw [hplain, unsign_digits hdigits]
      · rw [hplus]
        rfl
    rw [hunsigned]
    exact ⟨⟨hne, List.all_eq_true.mpr hdigits, hle⟩, rfl⟩

variable {environment : Environment} {v : Variable} {rule : String}

/-- The number that a variable is set to. -/
def numberOf (environment : Environment) (v : Variable) : Option Nat :=
  (textOf environment v).bind fun text =>
    v.greatest?.bind fun greatest => unsigned? greatest (Text.trim text)

/-- The rule that a variable breaks. -/
def broken? (environment : Environment) (v : Variable) : Option String :=
  match environment v with
  | none => none
  | some bytes =>
    match Text.ofBytes? bytes with
    | none => some "must be valid UTF-8"
    | some text =>
      if Text.isBlankText text then some "must not be empty"
      else
        match v.greatest? with
        | none => none
        | some greatest =>
          match unsigned? greatest (Text.trim text) with
          | some _ => none
          | none => some "must be an unsigned integer"

theorem misuse_of_broken? (h : broken? environment v = some rule) :
    Misuse environment v rule := by
  unfold broken? at h
  cases hset : environment v with
  | none =>
    rw [hset] at h
    cases h
  | some bytes =>
    rw [hset] at h
    dsimp only at h
    cases htext : Text.ofBytes? bytes with
    | none =>
      rw [htext] at h
      cases h
      exact .undecodable hset htext
    | some text =>
      have hgiven : textOf environment v = some text := by
        unfold textOf
        rw [hset]
        exact htext
      rw [htext] at h
      dsimp only at h
      split at h
      next hblank =>
        cases h
        exact .blank hgiven hblank
      next hwritten =>
        cases hgreatest : v.greatest? with
        | none =>
          rw [hgreatest] at h
          cases h
        | some greatest =>
          rw [hgreatest] at h
          dsimp only at h
          cases hnumber : unsigned? greatest (Text.trim text) with
          | some number =>
            rw [hnumber] at h
            cases h
          | none =>
            rw [hnumber] at h
            cases h
            refine .unreadable hgiven (Bool.not_eq_true _ ▸ hwritten) hgreatest ?_
            intro n hle hdenotes
            have hread := unsigned?_eq_some_iff.mpr ⟨hdenotes, hle⟩
            rw [hnumber] at hread
            cases hread

theorem broken?_of_misuse (h : Misuse environment v rule) :
    broken? environment v = some rule := by
  have htextual {text : String} (given : textOf environment v = some text) :
      ∃ bytes, environment v = some bytes ∧ Text.ofBytes? bytes = some text :=
    Option.bind_eq_some_iff.mp given
  unfold broken?
  cases h with
  | undecodable given bad =>
    rw [given]
    dsimp only
    rw [bad]
  | blank given bad =>
    obtain ⟨bytes, hset, htext⟩ := htextual given
    rw [hset]
    dsimp only
    rw [htext]
    exact if_pos bad
  | @unreadable text greatest given written number bad =>
    obtain ⟨bytes, hset, htext⟩ := htextual given
    have hnumber : unsigned? greatest (Text.trim text) = none := by
      apply Option.eq_none_iff_forall_ne_some.mpr
      intro n hn
      obtain ⟨hdenotes, hle⟩ := unsigned?_eq_some_iff.mp hn
      exact bad n hle hdenotes
    rw [hset]
    dsimp only
    rw [htext]
    dsimp only
    rw [if_neg (by rw [written]; decide), number]
    dsimp only
    rw [hnumber]

/-- Whether a variable may be read. -/
def check (environment : Environment) (v : Variable) : Except Error Unit :=
  match broken? environment v with
  | none => .ok ()
  | some rule => .error (.env (v.name ++ " " ++ rule))

theorem readText_eq (hv : v.greatest? = none) :
    readText environment v = (fun _ => textOf environment v) <$> check environment v := by
  unfold readText textOf check broken?
  cases environment v with
  | none => rfl
  | some bytes =>
    dsimp only [Option.bind]
    cases Text.ofBytes? bytes with
    | none => rfl
    | some text =>
      dsimp only
      split
      · rfl
      · rw [hv]
        rfl

theorem readNumber_eq {greatest : Nat} (hv : v.greatest? = some greatest) :
    readNumber environment greatest v =
      (fun _ => numberOf environment v) <$> check environment v := by
  unfold readNumber readText numberOf textOf check broken?
  cases environment v with
  | none => rfl
  | some bytes =>
    dsimp only [Option.bind]
    cases Text.ofBytes? bytes with
    | none => rfl
    | some text =>
      dsimp only
      split
      · rfl
      · rw [hv]
        dsimp only [bind, Except.bind]
        cases unsigned? greatest (Text.trim text) <;> rfl

/-- What the environment sets, if no variable is misused. -/
def collected (environment : Environment) : Overrides where
  config := textOf environment .config
  path := textOf environment .path
  maxSize := (numberOf environment .maxSize).map UInt64.ofNat
  maxValue := (numberOf environment .maxValue).map UInt32.ofNat
  limit := (numberOf environment .limit).map UInt32.ofNat
  uri := textOf environment .uri
  token := textOf environment .token

theorem read_eq (environment : Environment) :
    read environment =
      (fun _ => collected environment) <$> Variable.order.forM (check environment) := by
  have horder : Variable.order.forM (check environment) = (do
      check environment .config
      check environment .path
      check environment .maxSize
      check environment .maxValue
      check environment .limit
      check environment .uri
      check environment .token
      pure ()) := rfl
  -- Each read is its check and then a value that the other reads do not change.
  unfold read
  rw [readText_eq rfl, readText_eq rfl, readNumber_eq rfl, readNumber_eq rfl, readNumber_eq rfl,
    readText_eq rfl, readText_eq rfl, horder]
  simp only [bind_map_left, bind_pure_comp, map_bind, Functor.map_map]
  rfl

theorem forM_first {checks : Variable → Except Error Unit} {before after : List Variable}
    {cause : Error} (hbefore : ∀ earlier ∈ before, checks earlier = .ok ())
    (h : checks v = .error cause) : (before ++ v :: after).forM checks = .error cause := by
  induction before with
  | nil =>
    change (checks v >>= fun _ => after.forM checks) = _
    rw [h]
    rfl
  | cons earlier rest ih =>
    change (checks earlier >>= fun _ => (rest ++ v :: after).forM checks) = _
    rw [hbefore earlier List.mem_cons_self]
    exact ih fun other hother => hbefore other (List.mem_cons_of_mem earlier hother)

theorem forM_all {checks : Variable → Except Error Unit} {order : List Variable}
    (h : ∀ v ∈ order, checks v = .ok ()) : order.forM checks = .ok () := by
  induction order with
  | nil => rfl
  | cons v rest ih =>
    change (checks v >>= fun _ => rest.forM checks) = _
    rw [h v List.mem_cons_self]
    exact ih fun other hother => h other (List.mem_cons_of_mem v hother)

theorem check_misused (h : Misuse environment v rule) :
    check environment v = .error (.env (v.name ++ " " ++ rule)) := by
  unfold check
  rw [broken?_of_misuse h]

theorem check_unmisused (h : ∀ rule, ¬ Misuse environment v rule) :
    check environment v = .ok () := by
  unfold check
  cases hbroken : broken? environment v with
  | none => rfl
  | some rule => exact absurd (misuse_of_broken? hbroken) (h rule)

/-- Among misused variables there is a first one. -/
theorem firstMisuse_or_none (environment : Environment) :
    (∃ v rule, FirstMisuse environment v rule) ∨ ∀ v rule, ¬ Misuse environment v rule := by
  have hscan (order : List Variable) :
      (∃ v rule before after, order = before ++ v :: after ∧
        (∀ earlier ∈ before, ∀ rule, ¬ Misuse environment earlier rule) ∧
        Misuse environment v rule) ∨ ∀ v ∈ order, ∀ rule, ¬ Misuse environment v rule := by
    induction order with
    | nil => exact .inr (List.forall_mem_nil _)
    | cons v rest ih =>
      by_cases hmisuse : ∃ rule, Misuse environment v rule
      · obtain ⟨rule, hmisuse⟩ := hmisuse
        exact .inl ⟨v, rule, [], rest, rfl, List.forall_mem_nil _, hmisuse⟩
      · have hv : ∀ rule, ¬ Misuse environment v rule := fun rule h => hmisuse ⟨rule, h⟩
        rcases ih with ⟨u, rule, before, after, rfl, hbefore, hu⟩ | hrest
        · exact .inl ⟨u, rule, v :: before, after, rfl, List.forall_mem_cons.mpr ⟨hv, hbefore⟩, hu⟩
        · exact .inr (List.forall_mem_cons.mpr ⟨hv, hrest⟩)
  rcases hscan Variable.order with ⟨v, rule, hfirst⟩ | hnone
  · exact .inl ⟨v, rule, hfirst⟩
  · exact .inr fun v => hnone v v.mem_order

/-- The first misused variable decides. -/
theorem read_misused (h : FirstMisuse environment v rule) :
    read environment = .error (.env (v.name ++ " " ++ rule)) := by
  obtain ⟨before, after, horder, hbefore, hmisuse⟩ := h
  have hchecks : (before ++ v :: after).forM (check environment) = _ :=
    forM_first (fun earlier hearlier => check_unmisused (hbefore earlier hearlier))
      (check_misused hmisuse)
  rw [read_eq, horder, hchecks]
  rfl

theorem read_unmisused (h : ∀ v rule, ¬ Misuse environment v rule) :
    read environment = .ok (collected environment) := by
  have hchecks : Variable.order.forM (check environment) = .ok () :=
    forM_all fun v _ => check_unmisused (h v)
  rw [read_eq, hchecks]
  rfl

/-- A number variable that is not misused is unset or in range. -/
theorem numberOf_cases {greatest : Nat} (hv : v.greatest? = some greatest)
    (h : ∀ rule, ¬ Misuse environment v rule) :
    textOf environment v = none ∧ numberOf environment v = none ∨
      ∃ text n, textOf environment v = some text ∧ numberOf environment v = some n ∧
        Denotes (Text.trim text) n ∧ n ≤ greatest := by
  unfold numberOf
  cases htext : textOf environment v with
  | none => exact .inl ⟨rfl, rfl⟩
  | some text =>
    right
    have hwritten : Text.isBlankText text = false := by
      apply Bool.eq_false_iff.mpr
      intro hblank
      exact h _ (.blank htext hblank)
    rw [Option.bind_some, hv, Option.bind_some]
    cases hnumber : unsigned? greatest (Text.trim text) with
    | none =>
      refine absurd (.unreadable htext hwritten hv ?_) (h _)
      intro n hle hdenotes
      have hread := unsigned?_eq_some_iff.mpr ⟨hdenotes, hle⟩
      rw [hnumber] at hread
      cases hread
    | some n =>
      obtain ⟨hdenotes, hle⟩ := unsigned?_eq_some_iff.mp hnumber
      exact ⟨text, n, rfl, rfl, hdenotes, hle⟩

/-- A number under what a variable sets in its place. -/
def Replaced (environment : Environment) (v : Variable) (number replaced : Nat) : Prop :=
  match textOf environment v with
  | none => replaced = number
  | some text => Denotes (Text.trim text) replaced

theorem replaced_numberOf {α : Type} {ofNat : Nat → α} {toNat : α → Nat} {greatest : Nat}
    (hexact : ∀ n ≤ greatest, toNat (ofNat n) = n) (hv : v.greatest? = some greatest)
    (h : ∀ rule, ¬ Misuse environment v rule) (number : α) :
    Replaced environment v (toNat number)
      (toNat (((numberOf environment v).map ofNat).getD number)) := by
  unfold Replaced
  rcases numberOf_cases hv h with ⟨htext, hnumber⟩ | ⟨text, n, htext, hnumber, hdenotes, hle⟩
  · rw [htext, hnumber]
    rfl
  · rw [htext, hnumber]
    change Denotes (Text.trim text) (toNat (ofNat n))
    rwa [hexact n hle]

end Overrides

open Overrides

variable {files : Files} {path : Option String} {environment : Environment} {start : Settings}

/-- Where the settings start from: the file that is given, else the one that the environment names,
else the defaults for a database path from the environment. -/
inductive Starts (files : Files) (environment : Environment) :
    Option String → Except Error Settings → Prop where
  | given (file : String) : Starts files environment (some file) (ofFile files file)
  | named {file : String} (config : textOf environment .config = some file) :
      Starts files environment none (ofFile files file)
  | plain {database : String} (config : textOf environment .config = none)
      (path : textOf environment .path = some database) :
      Starts files environment none (.ok { device := { path := database } })
  | nowhere (config : textOf environment .config = none)
      (path : textOf environment .path = none) :
      Starts files environment none
        (.error (.invalid "no config file given and PERSISTENTSTORE_PATH is unset"))

/-- The account under what the environment sets. An endpoint makes one where there is none. -/
def linked (environment : Environment) (account : Option Account.Config) : Option Account.Config :=
  let own : Option Account.Config :=
    account <|> (textOf environment .uri).map fun uri => { uri := uri }
  own.map fun account =>
    { account with
      uri := (textOf environment .uri).getD account.uri
      token := textOf environment .token <|> account.token }

/-- Each variable that is set takes the place of its own setting, and nothing else changes. -/
structure Resolves (environment : Environment) (start resolved : Settings) : Prop where
  path : resolved.device.path = (textOf environment .path).getD start.device.path
  maxSize : Replaced environment .maxSize start.device.maxSize.toNat resolved.device.maxSize.toNat
  maxValue :
    Replaced environment .maxValue start.device.maxValue.toNat resolved.device.maxValue.toNat
  limit : Replaced environment .limit start.device.limit.toNat resolved.device.limit.toNat
  device : resolved.device = { start.device with
    path := resolved.device.path
    maxSize := resolved.device.maxSize
    maxValue := resolved.device.maxValue
    limit := resolved.device.limit }
  exists_iff : resolved.account.isSome = true ↔
    start.account.isSome = true ∨ (textOf environment .uri).isSome = true
  account : resolved.account = linked environment start.account
  logging : resolved.logging = start.logging

theorem base_starts : Starts files environment path (base files path (collected environment)) := by
  cases path with
  | some file => exact .given file
  | none =>
    unfold base collected
    cases hconfig : textOf environment .config with
    | some file => exact .named hconfig
    | none =>
      cases hpath : textOf environment .path with
      | some path => exact .plain hconfig hpath
      | none => exact .nowhere hconfig hpath

theorem linked_isSome (account : Option Account.Config) :
    (linked environment account).isSome = true ↔
      account.isSome = true ∨ (textOf environment .uri).isSome = true := by
  unfold linked
  cases account <;> cases textOf environment .uri <;> simp

/-- A token is set, but there is no account that it could belong to. -/
def Orphaned (environment : Environment) (settings : Settings) : Prop :=
  settings.account = none ∧ textOf environment .uri = none ∧
    (textOf environment .token).isSome = true

theorem resolve_of_read {overrides : Overrides} (h : read environment = .ok overrides) :
    resolve files path environment = load files path overrides := by
  unfold resolve
  rw [h]
  rfl

/-- Settings that are complete are loaded if both stores accept them. -/
theorem load_of_override {overrides : Overrides} {settings resolved : Settings}
    (hstart : base files path overrides = .ok settings)
    (hoverride : override overrides settings = .ok resolved) :
    load files path overrides = (resolved.validate files).map fun _ => resolved := by
  unfold load
  rw [hstart]
  change (override overrides settings >>= _) = _
  rw [hoverride]
  change (resolved.validate files >>= _) = _
  cases resolved.validate files <;> rfl

theorem load_orphaned {settings : Settings}
    (hstart : base files path (collected environment) = .ok settings)
    (h : Orphaned environment settings) :
    load files path (collected environment) =
      .error (.invalid "PERSISTENTSTORE_TOKEN requires PERSISTENTSTORE_URI") := by
  obtain ⟨haccount, huri, htoken⟩ := h
  obtain ⟨token, htoken⟩ := Option.isSome_iff_exists.mp htoken
  have hrefused : overrideAccount (collected environment) settings.account =
      .error (.invalid "PERSISTENTSTORE_TOKEN requires PERSISTENTSTORE_URI") := by
    unfold overrideAccount collected
    rw [haccount, huri, htoken]
    rfl
  unfold load override
  rw [hstart]
  change ((overrideAccount (collected environment) settings.account >>= _) >>= _) = _
  rw [hrefused]
  rfl

/-- The settings under what the environment sets. -/
def overlaid (environment : Environment) (settings : Settings) : Settings :=
  { settings with
    device := overrideDevice (collected environment) settings.device
    account := linked environment settings.account }

theorem load_linked {settings : Settings}
    (hstart : base files path (collected environment) = .ok settings)
    (h : ¬ Orphaned environment settings) :
    load files path (collected environment) =
      ((overlaid environment settings).validate files).map fun _ =>
        overlaid environment settings := by
  have hlinked : overrideAccount (collected environment) settings.account =
      .ok (linked environment settings.account) := by
    unfold Orphaned at h
    unfold overrideAccount linked collected
    cases haccount : settings.account with
    | some account => cases textOf environment .uri <;> cases textOf environment .token <;> rfl
    | none =>
      cases huri : textOf environment .uri with
      | some uri => cases textOf environment .token <;> rfl
      | none =>
        cases htoken : textOf environment .token with
        | none => rfl
        | some token => exact absurd ⟨haccount, huri, by rw [htoken]; rfl⟩ h
  apply load_of_override hstart
  unfold override
  rw [hlinked]
  rfl

theorem overlaid_resolves (h : ∀ v rule, ¬ Misuse environment v rule) :
    Resolves environment start (overlaid environment start) := by
  have hwide (n : Nat) (hle : n ≤ 2 ^ 64 - 1) : (UInt64.ofNat n).toNat = n :=
    UInt64.toNat_ofNat_of_lt' (by change n < 2 ^ 64; omega)
  have hnarrow (n : Nat) (hle : n ≤ 2 ^ 32 - 1) : (UInt32.ofNat n).toNat = n :=
    UInt32.toNat_ofNat_of_lt' (by change n < 2 ^ 32; omega)
  exact {
    path := rfl
    maxSize := replaced_numberOf hwide rfl (h .maxSize) start.device.maxSize
    maxValue := replaced_numberOf hnarrow rfl (h .maxValue) start.device.maxValue
    limit := replaced_numberOf hnarrow rfl (h .limit) start.device.limit
    device := rfl
    exists_iff := linked_isSome start.account
    account := rfl
    logging := rfl }

/-- A misused variable decides, the first one in reading order, whatever the files are. Without
one, the settings start from the file that is given, the one that the environment names, or the
defaults, and whatever keeps them from it is the outcome. From there on a token without an account
is refused; else every variable that is set takes the place of its setting, and the outcome is these
settings if both stores accept them. -/
theorem settings_resolved (files : Files) (path : Option String) (environment : Environment) :
    ((∃ v rule, FirstMisuse environment v rule) ∨ ∀ v rule, ¬ Misuse environment v rule) ∧
    (∀ v rule, FirstMisuse environment v rule →
      resolve files path environment = .error (.env (v.name ++ " " ++ rule))) ∧
    ((∀ v rule, ¬ Misuse environment v rule) →
      ∃ start, Starts files environment path start ∧
        (∀ cause, start = .error cause → resolve files path environment = .error cause) ∧
        ∀ settings, start = .ok settings →
          (Orphaned environment settings → resolve files path environment =
            .error (.invalid "PERSISTENTSTORE_TOKEN requires PERSISTENTSTORE_URI")) ∧
          (¬ Orphaned environment settings → ∃ resolved, Resolves environment settings resolved ∧
            resolve files path environment =
              (resolved.validate files).map fun _ => resolved)) := by
  refine ⟨firstMisuse_or_none environment, fun v rule hfirst => ?_, fun hplain => ?_⟩
  · unfold resolve
    rw [read_misused hfirst]
    rfl
  · rw [resolve_of_read (read_unmisused hplain)]
    refine ⟨_, base_starts, fun cause hstart => ?_, fun settings hstart => ⟨?_, ?_⟩⟩
    · unfold load
      rw [hstart]
      rfl
    · exact load_orphaned hstart
    · intro hlinked
      exact ⟨_, overlaid_resolves hplain, load_linked hstart hlinked⟩

/-- A database path and a budget from the environment, over the defaults. -/
theorem settings_resolved_over_defaults :
    let environment := ofTexts [(.path, "a.db"), (.maxSize, " +12")]
    let files : Files := { read := fun _ => .error "absent", isFolder := fun _ => false }
    (∀ v rule, ¬ Misuse environment v rule) ∧
      ∃ resolved, resolve files none environment = .ok resolved ∧
        resolved.device.path = "a.db" ∧ resolved.device.maxSize = 12 ∧
        resolved.device.limit = 10000 := by
  intro environment files
  have hplain : ∀ v rule, ¬ Misuse environment v rule := by
    intro v rule h
    have hbroken := broken?_of_misuse h
    have hkept : broken? environment v = none := by
      unfold environment
      cases v <;> cbv
    rw [hkept] at hbroken
    cases hbroken
  have hpath : textOf environment .path = some "a.db" := by
    unfold environment
    cbv
  have hsize : textOf environment .maxSize = some " +12" := by
    unfold environment
    cbv
  obtain ⟨start, hstarts, -, hloaded⟩ := (settings_resolved files none environment).2.2 hplain
  cases hstarts with
  | named config => cases config
  | nowhere config path => cases hpath.symm.trans path
  | plain config path =>
    obtain rfl := Option.some.inj (hpath.symm.trans path)
    obtain ⟨resolved, hresolves, hresult⟩ := (hloaded _ rfl).2 fun h => Bool.false_ne_true h.2.2
    have hwritten : Denotes (Text.trim " +12") resolved.device.maxSize.toNat := by
      have hreplaced := hresolves.maxSize
      unfold Replaced at hreplaced
      rwa [hsize] at hreplaced
    have htwelve : resolved.device.maxSize.toNat = 12 := by
      have hread := unsigned?_eq_some_iff.mpr ⟨hwritten, Nat.le_of_lt_succ (UInt64.toNat_lt _)⟩
      have hnumber : unsigned? (2 ^ 64 - 1) (Text.trim " +12") = some 12 := by cbv
      exact Option.some.inj (hread.symm.trans hnumber)
    have hsize : resolved.device.maxSize = 12 := UInt64.toNat_inj.mp htwelve
    have hvalue : resolved.device.maxValue = 1000 := UInt32.toNat_inj.mp hresolves.maxValue
    have hlimit : resolved.device.limit = 10000 := UInt32.toNat_inj.mp hresolves.limit
    have hpath : resolved.device.path = "a.db" := by
      rw [hresolves.path, hpath]
      rfl
    have hdevice : resolved.device = { path := "a.db", maxSize := 12 } := by
      rw [hresolves.device, hpath, hsize, hvalue, hlimit]
    have haccount : resolved.account = none := hresolves.account
    have hvalid : resolved.validate files = .ok () := by
      unfold validate
      rw [hdevice, haccount]
      cbv
    rw [hvalid] at hresult
    exact ⟨hplain, resolved, hresult, hpath, hsize, hlimit⟩

/-- A file without an account, and an endpoint in the environment. -/
theorem endpoint_makes_account :
    let environment := ofTexts [(.uri, "localhost")]
    let files : Files := {
      read := fun _ => .ok (Text.toBytes "device.path = 'a.db'")
      isFolder := fun _ => false }
    let settings : Settings := { device := { path := "a.db" } }
    let account : Account.Config := { uri := "localhost" }
    ofFile files "store.toml" = .ok settings ∧ settings.account = none ∧
      resolve files (some "store.toml") environment =
        .ok { settings with account := some account } := by
  intro environment files settings account
  have htext : Text.ofBytes? (Text.toBytes "device.path = 'a.db'") =
      some "device.path = 'a.db'" := by cbv
  have hlength : (Text.toBytes "device.path = 'a.db'").length = 20 := by cbv
  have htoml : ofToml "device.path = 'a.db'" = .ok settings := by
    decide +kernel
  have hfile : ofFile files "store.toml" = .ok settings := by
    unfold ofFile
    dsimp only [files]
    rw [if_neg (by rw [hlength]; decide), htext]
    exact htoml
  have hread : read environment = .ok { uri := some "localhost" } := by
    decide +kernel
  have hdevice : settings.device.validate files.isFolder = .ok () := by
    unfold settings files
    cbv
  have haccount : account.validate = .ok () := by decide +kernel
  have hbase : base files (some "store.toml") { uri := some "localhost" } = .ok settings := hfile
  have hoverride : override { uri := some "localhost" } settings =
      .ok { settings with account := some account } := rfl
  refine ⟨hfile, rfl, ?_⟩
  rw [resolve_of_read hread, load_of_override hbase hoverride]
  unfold validate
  dsimp only
  rw [hdevice, haccount]
  rfl

end ScopedStore.Settings
