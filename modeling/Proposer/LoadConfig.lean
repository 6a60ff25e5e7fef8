import Proposer.Bytes32

set_option autoImplicit false

/-! # Normalising a rollup config

`LoadOPStackRollupConfigFromChainID` decodes `rollup-configs/<id>.json` into a map, rewrites six
fields in place, and re-marshals it for `rollup.Config`: the block numbers `genesis.l1.number`,
`genesis.l2.number` and the two `max_change_denominator`s become integers when
`strconv.ParseInt` reads them in base 16 behind one `0x`, and `genesis.system_config.overhead`
and `scalar` go through `CustomBytes32.UnmarshalJSON` and come back as `0x` and 64 hex digits.
The model runs from the decoded map to the re-marshalled one; what `json.Unmarshal` makes of the
quoted bytes of a string is the parameter `quote`.

The rewrites meet a field-by-field specification (`Rewrites`, `rewrites_normalizeRollupConfig`),
assembled from one lemma per kind of rewrite and one per way of combining them. From it: a load
leaves each field in the form its decoder takes (`normalizeRollupConfig_canonical`) and nothing
else changed (`normalizeRollupConfig_frame`); it fails only on `overhead` or `scalar`
(`normalizeRollupConfig_error`); and loading a loaded config changes none of it
(`normalizeRollupConfig_reload`, from `CustomBytes32.unmarshalJSON_hexutilEncode`). -/

namespace Proposer

/-! ## Go maps of a decoded JSON object -/

/-- A decoded JSON object, as the fields of the `map[string]interface{}` it becomes. -/
abbrev JsonMap := List (String × JsonValue)

/-- `m[k]`: the value of the last field named `k`, the one `json.Unmarshal` keeps. -/
def mapGet : JsonMap → String → Option JsonValue
  | [], _ => none
  | (k', v) :: m, k =>
    match mapGet m k with
    | some w => some w
    | none => if k' = k then some v else none

/-- `m[k] = v` for a key `k` of `m`: every field named `k` holds `v`. -/
def mapSet (m : JsonMap) (k : String) (v : JsonValue) : JsonMap :=
  m.map fun kv => if kv.1 = k then (k, v) else kv

theorem mapGet_mapSet (m : JsonMap) (k k' : String) (v : JsonValue) :
    mapGet (mapSet m k v) k' = if k' = k then (mapGet m k').map fun _ => v else mapGet m k' := by
  induction m with
  | nil => simp [mapGet, mapSet]
  | cons kv m ih =>
    obtain ⟨k₁, v₁⟩ := kv
    have hcons : mapSet ((k₁, v₁) :: m) k v =
        (if k₁ = k then (k, v) else (k₁, v₁)) :: mapSet m k v := rfl
    by_cases h₁ : k₁ = k <;> rw [hcons] <;> [rw [if_pos h₁]; rw [if_neg h₁]] <;>
      simp only [mapGet, ih] <;> generalize mapGet m k' = g <;> by_cases h' : k' = k <;>
      cases g <;> simp_all [@eq_comm _ k]

@[simp] theorem mapGet_mapSet_self (m : JsonMap) (k : String) (v : JsonValue) :
    mapGet (mapSet m k v) k = (mapGet m k).map fun _ => v := by
  simp [mapGet_mapSet]

theorem mapGet_mapSet_ne (m : JsonMap) {k k' : String} (v : JsonValue) (h : k' ≠ k) :
    mapGet (mapSet m k v) k' = mapGet m k' := by
  simp [mapGet_mapSet, h]

/-! ## `strconv.ParseInt(s, 16, 64)` -/

instance (ds : List Char) : Decidable (AllHex ds) := inferInstanceAs (Decidable (∀ c ∈ ds, _))

/-- `strconv.ParseUint(s, 16, 64)`, its error dropped: at least one hex digit of either case, of
    value below `2^64`. -/
def parseUint16 (s : List Char) : Option Nat :=
  if s ≠ [] ∧ AllHex s then
    if digitsValue 16 (hexDigits s) < 2 ^ 64 then some (digitsValue 16 (hexDigits s)) else none
  else none

/-- `strconv.ParseInt(s, 16, 64)`, its error dropped: an optional sign, then what `ParseUint`
    reads, in the range of an `int64`. -/
def parseInt16 (s : List Char) : Option Int :=
  let (neg, rest) : Bool × List Char :=
    match s with
    | '+' :: rest => (false, rest)
    | '-' :: rest => (true, rest)
    | _ => (false, s)
  match parseUint16 rest with
  | none => none
  | some un =>
    if neg then (if 2 ^ 63 < un then none else some (-(un : Int)))
    else (if 2 ^ 63 ≤ un then none else some (un : Int))

/-! ## `eth.Bytes32` as JSON -/

/-- `hextable`, the digits `encoding/hex` writes. -/
def hexTable : List Char := "0123456789abcdef".toList

/-- The two digits `hex.Encode` writes for a byte, the high half first. -/
def hexPair (b : UInt8) : List Char :=
  [hexTable.getD (b.toNat / 16) '0', hexTable.getD (b.toNat % 16) '0']

/-- `hexutil.Encode`, with which `eth.Bytes32` marshals: `0x`, then two digits per byte. -/
def hexutilEncode (bytes : Bytes) : List Char :=
  "0x".toList ++ bytes.flatMap hexPair

/-- The zero `CustomBytes32` that `var customOverhead CustomBytes32` declares. -/
def CustomBytes32.zero : CustomBytes32 := ⟨List.replicate 32 0, rfl⟩

theorem hexDigitValue_hexTable : ∀ d < 16, hexDigitValue (hexTable.getD d '0') = some d := by
  decide

theorem length_flatMap_hexPair (bytes : Bytes) :
    (bytes.flatMap hexPair).length = 2 * bytes.length := by
  induction bytes with
  | nil => rfl
  | cons b bytes ih =>
    simp only [List.flatMap_cons, List.length_append, ih, hexPair, List.length_cons,
      List.length_nil]
    omega

/-- `hex.Decode` reads back the digits `hex.Encode` writes. -/
theorem hexDecodeDigits_flatMap_hexPair (bytes : Bytes) :
    hexDecodeDigits (bytes.flatMap hexPair) = .ok bytes := by
  induction bytes with
  | nil => rfl
  | cons b bytes ih =>
    have hb : UInt8.ofNat (16 * (b.toNat / 16) + b.toNat % 16) = b := by
      rw [Nat.div_add_mod]
      exact UInt8.eq_of_val_eq (Fin.ext (Nat.mod_eq_of_lt b.toNat_lt))
    have hcons : (b :: bytes).flatMap hexPair = hexTable.getD (b.toNat / 16) '0' ::
        hexTable.getD (b.toNat % 16) '0' :: bytes.flatMap hexPair := rfl
    have hhi := hexDigitValue_hexTable (b.toNat / 16) (by have := b.toNat_lt; omega)
    have hlo := hexDigitValue_hexTable (b.toNat % 16) (Nat.mod_lt _ (by decide))
    rw [hcons]
    simp only [hexDecodeDigits, hhi, hlo, ih, hb]
    rfl

/-- **The round trip of `eth.Bytes32`.** What `eth.Bytes32` marshals to, `CustomBytes32.UnmarshalJSON`
    reads back, into any receiver. -/
theorem CustomBytes32.unmarshalJSON_hexutilEncode (b c : CustomBytes32) :
    b.unmarshalJSON (.json (.string (String.mk (hexutilEncode c.bytes)))) = (.ok (), c) := by
  have htrim : trimPrefix (hexutilEncode c.bytes) "0x".toList = c.bytes.flatMap hexPair := by
    simp [trimPrefix, hexutilEncode]
  have hpad : padLeftZeros 64 (c.bytes.flatMap hexPair) = c.bytes.flatMap hexPair := by
    simp only [padLeftZeros, length_flatMap_hexPair, c.size_eq, Nat.sub_self, List.replicate_zero,
      List.nil_append]
  have hmk : (String.mk (hexutilEncode c.bytes)).toList = hexutilEncode c.bytes := rfl
  rw [CustomBytes32.unmarshalJSON_string, hmk, htrim, hpad, hexDecodeDigits_flatMap_hexPair]
  exact dif_pos c.size_eq

/-! ## The rewrites -/

/-- `if v, ok := m[key].(string); ok { if n, err := strconv.ParseInt(strings.TrimPrefix(v, "0x"),
    16, 64); err == nil { m[key] = n } }`. -/
def normalizeHexInt (key : String) (m : JsonMap) : JsonMap :=
  match mapGet m key with
  | some (.string v) =>
    match parseInt16 (trimPrefix v.toList "0x".toList) with
    | some n => mapSet m key (.number n)
    | none => m
  | _ => m

/-- `if v, ok := m[key].(string); ok { var c CustomBytes32; if err := c.UnmarshalJSON(...); err
    != nil { return fmt.Errorf("failed to parse <what>: %w", err) }; m[key] = eth.Bytes32(c) }`,
    where `quote v` is what `json.Unmarshal` makes of `"\"" + v + "\""`. -/
def normalizeBytes32 (quote : String → JsonBody) (key what : String) (m : JsonMap) :
    Except String JsonMap :=
  match mapGet m key with
  | some (.string v) =>
    match CustomBytes32.zero.unmarshalJSON (quote v) with
    | (.error e, _) => .error ("failed to parse " ++ what ++ ": " ++ e)
    | (.ok (), c) => .ok (mapSet m key (.string (String.mk (hexutilEncode c.bytes))))
  | _ => .ok m

/-- `if inner, ok := m[key].(map[string]interface{}); ok { ... }`, where the block `f` rewrites
    `inner` in place or returns an error. -/
def withMap (key : String) (f : JsonMap → Except String JsonMap) (m : JsonMap) :
    Except String JsonMap :=
  match mapGet m key with
  | some (.object inner) => (fun inner' => mapSet m key (.object inner')) <$> f inner
  | _ => .ok m

/-- The rewrites of `LoadOPStackRollupConfigFromChainID` between the two `json.Unmarshal`s, in
    the source's order, on the decoded map `rawConfig`. -/
def normalizeRollupConfig (quote : String → JsonBody) (rawConfig : JsonMap) :
    Except String JsonMap := do
  let rawConfig ← withMap "genesis" (fun genesis => do
      let genesis ← withMap "l1" (fun l1 => pure (normalizeHexInt "number" l1)) genesis
      let genesis ← withMap "l2" (fun l2 => pure (normalizeHexInt "number" l2)) genesis
      withMap "system_config" (fun systemConfig => do
          let systemConfig ← normalizeBytes32 quote "overhead" "overhead" systemConfig
          normalizeBytes32 quote "scalar" "scalar" systemConfig) genesis) rawConfig
  let rawConfig ← withMap "base_fee_params"
    (fun baseFeeParams => pure (normalizeHexInt "max_change_denominator" baseFeeParams)) rawConfig
  withMap "canyon_base_fee_params"
    (fun canyonBaseFeeParams => pure (normalizeHexInt "max_change_denominator" canyonBaseFeeParams))
    rawConfig

theorem withMap_eq_ok {key : String} {f : JsonMap → Except String JsonMap} {m m' : JsonMap}
    (h : withMap key f m = .ok m') :
    (∃ inner inner', mapGet m key = some (.object inner) ∧ f inner = .ok inner' ∧
      m' = mapSet m key (.object inner')) ∨
    ((∀ inner, mapGet m key ≠ some (.object inner)) ∧ m' = m) := by
  unfold withMap at h
  split at h
  · next inner hm =>
    cases hf : f inner <;> rw [hf] at h <;> cases h
    exact .inl ⟨inner, _, hm, hf, rfl⟩
  · next hm => exact .inr ⟨hm, (Except.ok.inj h).symm⟩

theorem withMap_eq_error {key : String} {f : JsonMap → Except String JsonMap} {m : JsonMap}
    {e : String} (h : withMap key f m = .error e) :
    ∃ inner, mapGet m key = some (.object inner) ∧ f inner = .error e := by
  unfold withMap at h
  split at h
  · next inner hm =>
    cases hf : f inner <;> rw [hf] at h <;> cases h
    exact ⟨inner, hm, hf⟩
  · cases h

/-! ## Paths into the decoded map -/

/-- The value at a path of keys, each key a `.(map[string]interface{})` and an index. -/
def getPath : JsonValue → List String → Option JsonValue
  | v, [] => some v
  | .object m, k :: p => (mapGet m k).bind fun v => getPath v p
  | _, _ :: _ => none

@[simp] theorem getPath_nil (v : JsonValue) : getPath v [] = some v := by
  cases v <;> rfl

@[simp] theorem getPath_object_cons (m : JsonMap) (k : String) (p : List String) :
    getPath (.object m) (k :: p) = (mapGet m k).bind fun v => getPath v p := rfl

@[simp] theorem getPath_string_cons (s k : String) (p : List String) :
    getPath (.string s) (k :: p) = none := rfl

@[simp] theorem getPath_number_cons (n : Int) (k : String) (p : List String) :
    getPath (.number n) (k :: p) = none := rfl

theorem getPath_singleton (m : JsonMap) (k : String) : getPath (.object m) [k] = mapGet m k := by
  rw [getPath_object_cons]
  cases mapGet m k <;> simp

/-- Below a value that is not an object, no path leads anywhere. -/
theorem getPath_of_not_object {v : JsonValue} (hv : ∀ m, v ≠ .object m) :
    ∀ {p : List String}, p ≠ [] → getPath v p = none
  | [], h => absurd rfl h
  | _ :: _, _ => by cases v <;> first | rfl | exact absurd rfl (hv _)

/-! ## What the load does, field by field

The specification of the rewrites: each field the load touches is named by its path and by its
kind, and the value there becomes what its kind makes of it. -/

/-- The kinds of field the load rewrites. -/
inductive FieldKind where
  /-- A block number or a denominator, read by `strconv.ParseInt`. -/
  | hexInt
  /-- `overhead` or `scalar`, read by `CustomBytes32.UnmarshalJSON`; `what` names it in errors. -/
  | bytes32 (what : String)
  deriving DecidableEq

/-- What the load makes of the value of a field of kind `kind`. -/
def FieldKind.rewrite (quote : String → JsonBody) : FieldKind → JsonValue → Except String JsonValue
  | .hexInt, .string v =>
    match parseInt16 (trimPrefix v.toList "0x".toList) with
    | some n => .ok (.number n)
    | none => .ok (.string v)
  | .bytes32 what, .string v =>
    match CustomBytes32.zero.unmarshalJSON (quote v) with
    | (.error e, _) => .error ("failed to parse " ++ what ++ ": " ++ e)
    | (.ok (), c) => .ok (.string (String.mk (hexutilEncode c.bytes)))
  | _, v => .ok v

/-- The form `rollup.Config`'s decoder meets in a field after the load: a string left at an
    integer field is one `ParseInt` rejects, and a string at `overhead` or `scalar` is what
    `eth.Bytes32` marshals to. -/
def FieldKind.Canonical : FieldKind → JsonValue → Prop
  | .hexInt, v => ∀ s, v = .string s → parseInt16 (trimPrefix s.toList "0x".toList) = none
  | .bytes32 _, v => ∀ s, v = .string s → ∃ c : CustomBytes32, s.toList = hexutilEncode c.bytes

/-- The six fields of `LoadOPStackRollupConfigFromChainID`, in the source's order. -/
def rollupConfigFields : List (List String × FieldKind) :=
  [(["genesis", "l1", "number"], .hexInt),
   (["genesis", "l2", "number"], .hexInt),
   (["genesis", "system_config", "overhead"], .bytes32 "overhead"),
   (["genesis", "system_config", "scalar"], .bytes32 "scalar"),
   (["base_fee_params", "max_change_denominator"], .hexInt),
   (["canyon_base_fee_params", "max_change_denominator"], .hexInt)]

section Rewrites

variable (quote : String → JsonBody)

/-- `f` rewrites a decoded map field by field: the value at each path of `fields` becomes what
    its kind makes of it (an absent field stays absent), a value its kind rejects fails `f` with
    that error, and every path that leads to none of `fields` keeps its value. -/
structure Rewrites (fields : List (List String × FieldKind)) (f : JsonMap → Except String JsonMap) :
    Prop where
  field : ∀ m m', f m = .ok m' → ∀ t ∈ fields,
    (getPath (.object m) t.1).mapM (t.2.rewrite quote) = .ok (getPath (.object m') t.1)
  frame : ∀ m m', f m = .ok m' → ∀ p, (∀ t ∈ fields, ¬ p <+: t.1) →
    getPath (.object m') p = getPath (.object m) p
  error : ∀ m e, f m = .error e → ∃ t ∈ fields, ∃ v,
    getPath (.object m) t.1 = some v ∧ t.2.rewrite quote v = .error e

theorem mapM_eq_ok {g : JsonValue → Except String JsonValue} {o o' : Option JsonValue} :
    o.mapM g = .ok o' ↔ (o = none ∧ o' = none) ∨ ∃ v v', o = some v ∧ g v = .ok v' ∧ o' = some v' := by
  cases o with
  | none => simp [Option.mapM, pure, Except.pure, eq_comm]
  | some v =>
    cases hg : g v <;> simp [Option.mapM, hg, bind, Except.bind, pure, Except.pure, eq_comm]

theorem mapM_some_of_eq_ok {g : JsonValue → Except String JsonValue} {v w : JsonValue}
    (h : g v = .ok w) : (some v).mapM g = .ok (some w) :=
  mapM_eq_ok.2 (.inr ⟨v, w, rfl, h, rfl⟩)

/-- Every kind leaves a value that is not a string as it is. -/
theorem FieldKind.mapM_rewrite_of_not_string {kind : FieldKind} {o : Option JsonValue}
    (ho : ∀ s, o ≠ some (.string s)) : o.mapM (kind.rewrite quote) = .ok o := by
  rcases o with _ | v
  · rfl
  · cases kind <;> cases v <;> first | rfl | exact absurd rfl (ho _)

/-- A rewritten value is a string or a number when the old one was a string, and the old value
    otherwise; so no path below it leads anywhere new. -/
theorem FieldKind.getPath_rewrite {kind : FieldKind} {v w : JsonValue}
    (h : kind.rewrite quote v = .ok w) {p : List String} (hp : p ≠ []) : getPath w p = getPath v p := by
  obtain ⟨k, p, rfl⟩ : ∃ k p', p = k :: p' := List.exists_cons_of_ne_nil hp
  cases kind <;> cases v <;> simp only [FieldKind.rewrite] at h <;> (try cases h; rfl) <;>
    split at h <;> cases h <;> rfl

theorem FieldKind.rewrite_canonical {kind : FieldKind} {v w : JsonValue}
    (h : kind.rewrite quote v = .ok w) : kind.Canonical w := by
  cases kind <;> rintro s rfl <;> cases v <;> simp only [FieldKind.rewrite] at h <;> try cases h
  all_goals split at h <;> cases h
  · assumption
  · exact ⟨_, rfl⟩

/-- What a canonical value is made into: itself, when `json.Unmarshal` reads the quoted encoding
    of every `Bytes32` as that string. -/
theorem FieldKind.rewrite_of_canonical
    (hquote : ∀ c : CustomBytes32, quote (String.mk (hexutilEncode c.bytes)) =
      .json (.string (String.mk (hexutilEncode c.bytes))))
    {kind : FieldKind} {v : JsonValue} (hv : kind.Canonical v) : kind.rewrite quote v = .ok v := by
  cases kind <;> cases v <;> try rfl
  case hexInt.string s => simp only [FieldKind.rewrite, hv s rfl]
  case bytes32.string what s =>
    obtain ⟨c, hc⟩ := hv s rfl
    obtain rfl : s = String.mk (hexutilEncode c.bytes) := by rw [← hc]; rfl
    simp only [FieldKind.rewrite, hquote, CustomBytes32.unmarshalJSON_hexutilEncode]

/-- Only `overhead` and `scalar` fail, with `UnmarshalJSON`'s error behind the field's name. -/
theorem FieldKind.rewrite_eq_error {kind : FieldKind} {v : JsonValue} {e : String}
    (h : kind.rewrite quote v = .error e) :
    ∃ what s e', kind = .bytes32 what ∧ v = .string s ∧
      (CustomBytes32.zero.unmarshalJSON (quote s)).1 = .error e' ∧
      e = "failed to parse " ++ what ++ ": " ++ e' := by
  cases kind <;> cases v <;> simp only [FieldKind.rewrite] at h <;> try cases h
  all_goals split at h <;> cases h
  rename_i hu
  exact ⟨_, _, _, rfl, rfl, by rw [hu], rfl⟩

theorem exceptBind_eq_ok {α β : Type} {x : Except String α} {f : α → Except String β} {b : β} :
    x >>= f = .ok b ↔ ∃ a, x = .ok a ∧ f a = .ok b := by
  cases x <;> simp [bind, Except.bind]

theorem exceptBind_eq_error {α β : Type} {x : Except String α} {f : α → Except String β}
    {e : String} : x >>= f = .error e ↔ x = .error e ∨ ∃ a, x = .ok a ∧ f a = .error e := by
  cases x <;> simp [bind, Except.bind]

/-- A rewrite of the one field `key` of a map, from what it leaves at each key and when it
    fails. -/
theorem rewrites_single {key : String} {kind : FieldKind} {f : JsonMap → Except String JsonMap}
    (hok : ∀ m m', f m = .ok m' →
      (mapGet m key).mapM (kind.rewrite quote) = .ok (mapGet m' key) ∧
      ∀ k, k ≠ key → mapGet m' k = mapGet m k)
    (herr : ∀ m e, f m = .error e → ∃ v, mapGet m key = some v ∧ kind.rewrite quote v = .error e) :
    Rewrites quote [([key], kind)] f where
  field m m' h t ht := by
    obtain rfl := List.mem_singleton.1 ht
    simpa only [getPath_singleton] using (hok m m' h).1
  frame m m' h p hp := by
    match p with
    | [] => exact absurd List.nil_prefix (hp _ (List.mem_singleton_self _))
    | k :: q =>
      by_cases hk : k = key
      · subst hk
        have hq : q ≠ [] := fun hq => hp _ (List.mem_singleton_self _) (by simp [hq])
        rcases mapM_eq_ok.1 (hok m m' h).1 with ⟨hm, hm'⟩ | ⟨v, v', hm, hv, hm'⟩
        · simp [hm, hm']
        · simp [hm, hm', FieldKind.getPath_rewrite quote hv hq]
      · simp only [getPath_object_cons, (hok m m' h).2 k hk]
  error m e h := by
    obtain ⟨v, hv, he⟩ := herr m e h
    exact ⟨_, List.mem_singleton_self _, v, by rw [getPath_singleton, hv], he⟩

theorem rewrites_normalizeHexInt (key : String) :
    Rewrites quote [([key], .hexInt)] fun m => pure (normalizeHexInt key m) := by
  refine rewrites_single quote (fun m m' h => ?_) (fun _ _ h => by cases h)
  obtain rfl := Except.ok.inj h
  unfold normalizeHexInt
  split
  · next v hm =>
    split
    · next n hn =>
      refine ⟨?_, fun k hk => mapGet_mapSet_ne m _ hk⟩
      rw [mapGet_mapSet_self, hm, Option.map_some']
      exact mapM_some_of_eq_ok (by simp only [FieldKind.rewrite, hn])
    · next hn =>
      rw [hm]
      exact ⟨mapM_some_of_eq_ok (by simp only [FieldKind.rewrite, hn]), fun _ _ => rfl⟩
  · next hm => exact ⟨FieldKind.mapM_rewrite_of_not_string quote hm, fun _ _ => rfl⟩

theorem rewrites_normalizeBytes32 (key what : String) :
    Rewrites quote [([key], .bytes32 what)] (normalizeBytes32 quote key what) := by
  refine rewrites_single quote (fun m m' h => ?_) (fun m e h => ?_)
  all_goals unfold normalizeBytes32 at h; split at h
  · next v hm =>
    split at h
    · cases h
    · next c hu =>
      obtain rfl := Except.ok.inj h
      refine ⟨?_, fun k hk => mapGet_mapSet_ne m _ hk⟩
      rw [mapGet_mapSet_self, hm, Option.map_some']
      exact mapM_some_of_eq_ok (by simp only [FieldKind.rewrite, hu])
  · next hm =>
    obtain rfl := Except.ok.inj h
    exact ⟨FieldKind.mapM_rewrite_of_not_string quote hm, fun _ _ => rfl⟩
  · next v hm =>
    split at h
    · next e' c hu =>
      obtain rfl := Except.error.inj h
      exact ⟨_, hm, by simp only [FieldKind.rewrite, hu]⟩
    · cases h
  · cases h

variable {quote}

/-- A rewrite of the map at `key`, inside the object there. -/
theorem Rewrites.withMap {fields : List (List String × FieldKind)}
    {f : JsonMap → Except String JsonMap} (hf : Rewrites quote fields f) (key : String)
    (hne : ∀ t ∈ fields, t.1 ≠ []) (hnil : fields ≠ []) :
    Rewrites quote (fields.map fun t => (key :: t.1, t.2)) (withMap key f) where
  field m m' h t ht := by
    obtain ⟨t, ht₀, rfl⟩ := List.mem_map.1 ht
    rcases withMap_eq_ok h with ⟨inner, inner', hm, hf', rfl⟩ | ⟨hm, hm'⟩
    · simpa [hm] using hf.field inner inner' hf' t ht₀
    · subst m'
      have hnone : getPath (.object m) (key :: t.1) = none := by
        cases hv : mapGet m key with
        | none => simp [hv]
        | some v =>
          simp [hv, getPath_of_not_object (fun inner hi => hm inner (hi ▸ hv)) (hne t ht₀)]
      rw [hnone]
      rfl
  frame m m' h p hp := by
    match p with
    | [] =>
      obtain ⟨t, ht⟩ := List.exists_mem_of_ne_nil _ hnil
      exact absurd List.nil_prefix (hp _ (List.mem_map_of_mem _ ht))
    | k :: q =>
      rcases withMap_eq_ok h with ⟨inner, inner', hm, hf', rfl⟩ | ⟨-, rfl⟩
      · by_cases hk : k = key
        · subst hk
          have hq : ∀ t ∈ fields, ¬ q <+: t.1 := fun t ht hpre =>
            hp _ (List.mem_map_of_mem _ ht) (List.cons_prefix_cons.2 ⟨rfl, hpre⟩)
          simp [hm, hf.frame inner inner' hf' q hq]
        · simp [mapGet_mapSet_ne _ _ hk]
      · rfl
  error m e h := by
    obtain ⟨inner, hm, he⟩ := withMap_eq_error h
    obtain ⟨t, ht, v, hv, hve⟩ := hf.error inner e he
    exact ⟨_, List.mem_map_of_mem _ ht, v, by simp [hm, hv], hve⟩

/-- Two rewrites one after the other, of fields no path of one leads to. -/
theorem Rewrites.bind {fs gs : List (List String × FieldKind)} {f g : JsonMap → Except String JsonMap}
    (hf : Rewrites quote fs f) (hg : Rewrites quote gs g)
    (hsep : ∀ s ∈ fs, ∀ t ∈ gs, ¬ s.1 <+: t.1 ∧ ¬ t.1 <+: s.1) :
    Rewrites quote (fs ++ gs) fun m => f m >>= g where
  field m m' h t ht := by
    obtain ⟨m₁, h₁, h₂⟩ := exceptBind_eq_ok.1 h
    rcases List.mem_append.1 ht with ht | ht
    · rw [hg.frame m₁ m' h₂ t.1 fun u hu => (hsep t ht u hu).1]
      exact hf.field m m₁ h₁ t ht
    · rw [← hf.frame m m₁ h₁ t.1 fun s hs => (hsep s hs t ht).2]
      exact hg.field m₁ m' h₂ t ht
  frame m m' h p hp := by
    obtain ⟨m₁, h₁, h₂⟩ := exceptBind_eq_ok.1 h
    rw [hg.frame m₁ m' h₂ p fun t ht => hp t (List.mem_append_right _ ht),
      hf.frame m m₁ h₁ p fun t ht => hp t (List.mem_append_left _ ht)]
  error m e h := by
    rcases exceptBind_eq_error.1 h with h₁ | ⟨m₁, h₁, h₂⟩
    · obtain ⟨t, ht, v, hv, he⟩ := hf.error m e h₁
      exact ⟨t, List.mem_append_left _ ht, v, hv, he⟩
    · obtain ⟨t, ht, v, hv, he⟩ := hg.error m₁ e h₂
      refine ⟨t, List.mem_append_right _ ht, v, ?_, he⟩
      rwa [← hf.frame m m₁ h₁ t.1 fun s hs => (hsep s hs t ht).2]

/-- After a successful rewrite, every field holds a value in its kind's canonical form. -/
theorem Rewrites.canonical {fields : List (List String × FieldKind)}
    {f : JsonMap → Except String JsonMap} (hf : Rewrites quote fields f) {m m' : JsonMap}
    (h : f m = .ok m') : ∀ t ∈ fields, ∀ v, getPath (.object m') t.1 = some v → t.2.Canonical v := by
  intro t ht v hv
  rcases mapM_eq_ok.1 (hf.field m m' h t ht) with ⟨-, hn⟩ | ⟨_, _, -, hw, hs⟩
  · rw [hn] at hv
    cases hv
  · obtain rfl := Option.some.inj (hs.symm.trans hv)
    exact FieldKind.rewrite_canonical quote hw

/-- A map whose fields are left as they are by their kinds is rewritten without error, and its
    fields keep their values. -/
theorem Rewrites.ok_of_fixed {fields : List (List String × FieldKind)}
    {f : JsonMap → Except String JsonMap} (hf : Rewrites quote fields f) {m : JsonMap}
    (hfix : ∀ t ∈ fields, ∀ v, getPath (.object m) t.1 = some v → t.2.rewrite quote v = .ok v) :
    ∃ m', f m = .ok m' ∧ ∀ t ∈ fields, getPath (.object m') t.1 = getPath (.object m) t.1 := by
  cases hm : f m with
  | error e =>
    obtain ⟨t, ht, v, hv, he⟩ := hf.error m e hm
    cases (hfix t ht v hv).symm.trans he
  | ok m' =>
    refine ⟨m', rfl, fun t ht => ?_⟩
    rcases mapM_eq_ok.1 (hf.field m m' hm t ht) with ⟨h₁, h₂⟩ | ⟨v, v', h₁, hw, h₂⟩
    · rw [h₁, h₂]
    · rw [h₁, h₂, ← Except.ok.inj ((hfix t ht v h₁).symm.trans hw)]

variable (quote)

/-- **The load, field by field.** `normalizeRollupConfig` rewrites the six fields of
    `rollupConfigFields` and nothing else. -/
theorem rewrites_normalizeRollupConfig :
    Rewrites quote rollupConfigFields (normalizeRollupConfig quote) := by
  have hl1 := (rewrites_normalizeHexInt quote "number").withMap "l1" (by simp) (by simp)
  have hl2 := (rewrites_normalizeHexInt quote "number").withMap "l2" (by simp) (by simp)
  have hsc := ((rewrites_normalizeBytes32 quote "overhead" "overhead").bind
      (rewrites_normalizeBytes32 quote "scalar" "scalar") (by decide)).withMap "system_config"
      (by simp) (by simp)
  have hgenesis := (hl1.bind (hl2.bind hsc (by decide)) (by decide)).withMap "genesis"
    (by simp) (by simp)
  have hbfp := (rewrites_normalizeHexInt quote "max_change_denominator").withMap "base_fee_params"
    (by simp) (by simp)
  have hcbfp := (rewrites_normalizeHexInt quote "max_change_denominator").withMap
    "canyon_base_fee_params" (by simp) (by simp)
  exact hgenesis.bind (hbfp.bind hcbfp (by decide)) (by decide)

end Rewrites

/-! ## The load -/

/-- **What a successful load leaves in the six fields.** A string left at a block number or a
    denominator is one `ParseInt` rejects, and a string at `overhead` or `scalar` is `0x` and the
    64 lowercase digits of a `Bytes32`. -/
theorem normalizeRollupConfig_canonical (quote : String → JsonBody) (rawConfig config : JsonMap)
    (h : normalizeRollupConfig quote rawConfig = .ok config) :
    ∀ t ∈ rollupConfigFields, ∀ v, getPath (.object config) t.1 = some v → t.2.Canonical v :=
  (rewrites_normalizeRollupConfig quote).canonical h

theorem normalizeRollupConfig_canonical_l1 :
    normalizeRollupConfig (fun v => .json (.string v))
        [("genesis", .object [("l1", .object [("number", .string "0x10")])])] =
      .ok [("genesis", .object [("l1", .object [("number", .number 16)])])] ∧
    ∀ t ∈ rollupConfigFields, ∀ v,
      getPath (.object [("genesis", .object [("l1", .object [("number", .number 16)])])]) t.1 =
        some v → t.2.Canonical v :=
  by refine ⟨?h, normalizeRollupConfig_canonical _ _ _ ?h⟩; rfl

/-- **A successful load changes nothing else**: every path that leads to none of the six fields
    has the value it had in the decoded file. -/
theorem normalizeRollupConfig_frame (quote : String → JsonBody) (rawConfig config : JsonMap)
    (h : normalizeRollupConfig quote rawConfig = .ok config) :
    ∀ p, (∀ t ∈ rollupConfigFields, ¬ p <+: t.1) →
      getPath (.object config) p = getPath (.object rawConfig) p :=
  (rewrites_normalizeRollupConfig quote).frame _ _ h

theorem normalizeRollupConfig_frame_l1 :
    normalizeRollupConfig (fun v => .json (.string v))
        [("genesis", .object [("l1", .object [("number", .string "0x10")])])] =
      .ok [("genesis", .object [("l1", .object [("number", .number 16)])])] ∧
    ∀ p, (∀ t ∈ rollupConfigFields, ¬ p <+: t.1) →
      getPath (.object [("genesis", .object [("l1", .object [("number", .number 16)])])]) p =
        getPath (.object [("genesis", .object [("l1", .object [("number", .string "0x10")])])]) p :=
  by refine ⟨?h, normalizeRollupConfig_frame _ _ _ ?h⟩; rfl

/-- **A load fails only on `overhead` or `scalar`**: on a string there that
    `CustomBytes32.UnmarshalJSON` rejects, with its error behind the field's name. -/
theorem normalizeRollupConfig_error (quote : String → JsonBody) (rawConfig : JsonMap) (e : String)
    (h : normalizeRollupConfig quote rawConfig = .error e) :
    ∃ what ∈ ["overhead", "scalar"], ∃ v e',
      getPath (.object rawConfig) ["genesis", "system_config", what] = some (.string v) ∧
      (CustomBytes32.zero.unmarshalJSON (quote v)).1 = .error e' ∧
      e = "failed to parse " ++ what ++ ": " ++ e' := by
  obtain ⟨t, ht, v, hv, he⟩ := (rewrites_normalizeRollupConfig quote).error rawConfig e h
  obtain ⟨what, s, e', hk, rfl, hu, rfl⟩ := FieldKind.rewrite_eq_error quote he
  simp only [rollupConfigFields, List.mem_cons, List.mem_singleton, List.not_mem_nil,
    or_false] at ht
  rcases ht with rfl | rfl | rfl | rfl | rfl | rfl <;> cases hk
  · exact ⟨_, by decide, s, e', hv, hu, rfl⟩
  · exact ⟨_, by decide, s, e', hv, hu, rfl⟩

theorem normalizeRollupConfig_error_overhead :
    normalizeRollupConfig (fun v => .json (.string v))
        [("genesis", .object [("system_config", .object [("overhead", .string "0xg")])])] =
      .error "failed to parse overhead: invalid hex string" ∧
    ∃ what ∈ ["overhead", "scalar"], ∃ v e',
      getPath (.object [("genesis", .object [("system_config",
          .object [("overhead", .string "0xg")])])]) ["genesis", "system_config", what] =
        some (.string v) ∧
      (CustomBytes32.zero.unmarshalJSON (.json (.string v))).1 = .error e' ∧
      "failed to parse overhead: invalid hex string" = "failed to parse " ++ what ++ ": " ++ e' :=
  by refine ⟨?h, normalizeRollupConfig_error _ _ _ ?h⟩; rfl

/-- **Loading a loaded config again** succeeds and leaves the six fields, and every path that
    leads to none of them, as they are: a `Bytes32` string is read back by `UnmarshalJSON` and
    re-encoded to itself, and a string `ParseInt` rejected is rejected again. This holds when
    `json.Unmarshal` reads the quoted encoding of a `Bytes32` as that string, as it does for a
    string with no quote or backslash in it. -/
theorem normalizeRollupConfig_reload (quote : String → JsonBody)
    (hquote : ∀ c : CustomBytes32, quote (String.mk (hexutilEncode c.bytes)) =
      .json (.string (String.mk (hexutilEncode c.bytes))))
    (rawConfig config : JsonMap) (h : normalizeRollupConfig quote rawConfig = .ok config) :
    ∃ config', normalizeRollupConfig quote config = .ok config' ∧
      ∀ p, (p ∈ rollupConfigFields.map Prod.fst ∨ ∀ t ∈ rollupConfigFields, ¬ p <+: t.1) →
        getPath (.object config') p = getPath (.object config) p := by
  have hr := rewrites_normalizeRollupConfig quote
  obtain ⟨config', h', hfix⟩ := hr.ok_of_fixed fun t ht v hv =>
    FieldKind.rewrite_of_canonical quote hquote (hr.canonical h t ht v hv)
  refine ⟨config', h', fun p hp => ?_⟩
  rcases hp with hp | hp
  · obtain ⟨t, ht, rfl⟩ := List.mem_map.1 hp
    exact hfix t ht
  · exact hr.frame _ _ h' p hp

theorem normalizeRollupConfig_reload_l1 :
    (∀ c : CustomBytes32, JsonBody.json (.string (String.mk (hexutilEncode c.bytes))) =
      .json (.string (String.mk (hexutilEncode c.bytes)))) ∧
    normalizeRollupConfig (fun v => .json (.string v))
        [("genesis", .object [("l1", .object [("number", .string "0x10")])])] =
      .ok [("genesis", .object [("l1", .object [("number", .number 16)])])] ∧
    ∃ config', normalizeRollupConfig (fun v => .json (.string v))
        [("genesis", .object [("l1", .object [("number", .number 16)])])] = .ok config' ∧
      ∀ p, (p ∈ rollupConfigFields.map Prod.fst ∨ ∀ t ∈ rollupConfigFields, ¬ p <+: t.1) →
        getPath (.object config') p =
          getPath (.object [("genesis", .object [("l1", .object [("number", .number 16)])])]) p :=
  by refine ⟨fun _ => rfl, ?h, normalizeRollupConfig_reload _ (fun _ => rfl) _ _ ?h⟩; rfl

end Proposer
