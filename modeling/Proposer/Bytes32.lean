import Proposer.Gateway
import Mathlib.Tactic.Ring

set_option autoImplicit false

/-! # Minimal-length hex in rollup configs

`LoadOPStackRollupConfigFromChainID` reads the 32-byte fields `system_config.overhead` and
`system_config.scalar`, which may be written as minimal-length hex such as `"0x1"`, with
`CustomBytes32.UnmarshalJSON`. The routine unmarshals a string, removes one leading `0x`
(`strings.TrimPrefix`), pads to 64 characters with leading zeros (`fmt.Sprintf("%064s", s)`),
decodes the digits two at a time behind `0x` (`common.ParseHexOrString`, `hexutil.Decode`), and
rejects a result that is not 32 bytes long.

The stages compose to what the field needs (`unmarshalJSON_hex`): the routine accepts a string
exactly when, behind an optional `0x`, it holds at most 64 hex digits of either case; it stores
the big-endian encoding of their value; a string and its padding decode alike; and a failure
leaves the receiver as it was. On a string, a failure is one of `hexutil`'s two errors or the
length check's (`CustomBytes32.unmarshalJSON_string_error`). The proof follows the stages: the
padding is digits of value zero (`digitsValue_replicate_zero`), and the decoder turns each pair
of digits into one byte (`hexDecodeDigits_ok`) or fails (`hexDecodeDigits_error`). -/

namespace Proposer

/-! ## The stages -/

/-- `strings.TrimPrefix(s, prefix)`. -/
def trimPrefix (s pfx : List Char) : List Char :=
  if pfx.isPrefixOf s then s.drop pfx.length else s

/-- `fmt.Sprintf("%0<width>s", s)`: `s` behind leading zeros, up to `width` characters. -/
def padLeftZeros (width : Nat) (s : List Char) : List Char :=
  List.replicate (width - s.length) '0' ++ s

/-- The value of a hex digit of either case, as `encoding/hex` reads it. -/
def hexDigitValue (c : Char) : Option Nat :=
  if '0' ≤ c ∧ c ≤ '9' then some (c.toNat - '0'.toNat)
  else if 'a' ≤ c ∧ c ≤ 'f' then some (c.toNat - 'a'.toNat + 10)
  else if 'A' ≤ c ∧ c ≤ 'F' then some (c.toNat - 'A'.toNat + 10)
  else none

/-- `hex.DecodeString` with `hexutil`'s errors: a byte for each pair of digits; a digit that is
    not hex is `ErrSyntax`, and a last digit without a pair is `ErrOddLength`. -/
def hexDecodeDigits : List Char → Except String Bytes
  | [] => .ok []
  | [c] => if (hexDigitValue c).isSome then .error "hex string of odd length"
    else .error "invalid hex string"
  | a :: b :: rest =>
    match hexDigitValue a, hexDigitValue b with
    | some x, some y => (UInt8.ofNat (16 * x + y) :: ·) <$> hexDecodeDigits rest
    | _, _ => .error "invalid hex string"

/-- `hexutil.Decode`: a `0x` or `0X` prefix, then the digits. -/
def hexutilDecode : List Char → Except String Bytes
  | [] => .error "empty hex string"
  | '0' :: x :: digits =>
    if x = 'x' ∨ x = 'X' then hexDecodeDigits digits else .error "hex string without 0x prefix"
  | _ => .error "hex string without 0x prefix"

/-- `common.ParseHexOrString`: the decoded hex, or the string's own bytes when it has no `0x`
    prefix. -/
def parseHexOrString (str : List Char) : Except String Bytes :=
  match hexutilDecode str with
  | .error "hex string without 0x prefix" => .ok (String.mk str).toUTF8.toList
  | r => r

/-- `json.Unmarshal(data, &s)` for a Go `string` `s` that starts empty: `null` leaves it so. -/
def unmarshalString : JsonBody → Except String String
  | .invalid err => .error err
  | .json .null => .ok ""
  | .json (.string s) => .ok s
  | .json v => .error ("json: cannot unmarshal " ++ v.kind ++ " into Go value of type string")

/-- `CustomBytes32`, over `eth.Bytes32`: 32 bytes. -/
structure CustomBytes32 where
  bytes : Bytes
  size_eq : bytes.length = 32
  deriving DecidableEq

/-- `(*CustomBytes32).UnmarshalJSON`: the error it returns, and the receiver after the call. -/
def CustomBytes32.unmarshalJSON (b : CustomBytes32) (data : JsonBody) :
    Except String Unit × CustomBytes32 :=
  match unmarshalString data with
  | .error e => (.error e, b)
  | .ok s =>
    let s := trimPrefix s.toList "0x".toList
    let s := padLeftZeros 64 s
    let s := "0x".toList ++ s
    match parseHexOrString s with
    | .error e => (.error e, b)
    | .ok bytes =>
      if h : bytes.length = 32 then (.ok (), ⟨bytes, h⟩)
      else (.error ("invalid length for Bytes32: got " ++ toString bytes.length ++ ", want 32"), b)

/-! ## Digits and their value -/

/-- The value of the digits `ds` in base `base`, the most significant first. -/
def digitsValue (base : Nat) (ds : List Nat) : Nat :=
  ds.foldl (fun n d => base * n + d) 0

theorem digitsValue_foldl (base : Nat) (ds : List Nat) (acc : Nat) :
    ds.foldl (fun n d => base * n + d) acc = acc * base ^ ds.length + digitsValue base ds := by
  induction ds generalizing acc with
  | nil => simp [digitsValue]
  | cons d ds ih =>
    have hd : digitsValue base (d :: ds) = ds.foldl (fun n d => base * n + d) (base * 0 + d) := rfl
    rw [List.foldl_cons, ih, hd, ih, List.length_cons, pow_succ]
    ring

theorem digitsValue_cons (base d : Nat) (ds : List Nat) :
    digitsValue base (d :: ds) = d * base ^ ds.length + digitsValue base ds := by
  rw [digitsValue, List.foldl_cons, digitsValue_foldl, Nat.mul_zero, Nat.zero_add]

/-- Leading zeros do not change a value. -/
theorem digitsValue_replicate_zero (base k : Nat) (ds : List Nat) :
    digitsValue base (List.replicate k 0 ++ ds) = digitsValue base ds := by
  induction k with
  | zero => rfl
  | succ k ih =>
    rw [List.replicate_succ, List.cons_append, digitsValue_cons, Nat.zero_mul, Nat.zero_add, ih]

theorem hexDigitValue_lt {c : Char} {x : Nat} (h : hexDigitValue c = some x) : x < 16 := by
  unfold hexDigitValue at h
  have h0 : ('0' : Char).toNat = 48 := rfl
  have ha : ('a' : Char).toNat = 97 := rfl
  have hA : ('A' : Char).toNat = 65 := rfl
  split_ifs at h with h₁ h₂ h₃ <;> obtain rfl := Option.some.inj h
  · have : c.toNat ≤ 57 := h₁.2
    omega
  · have : c.toNat ≤ 102 := h₂.2
    omega
  · have : c.toNat ≤ 70 := h₃.2
    omega

/-- The hex digits of `ds`, read as numbers. -/
def hexDigits (ds : List Char) : List Nat := ds.map fun c => (hexDigitValue c).getD 0

/-- Every character of `ds` is a hex digit. -/
def AllHex (ds : List Char) : Prop := ∀ c ∈ ds, (hexDigitValue c).isSome

@[simp] theorem allHex_cons (c : Char) (ds : List Char) :
    AllHex (c :: ds) ↔ (hexDigitValue c).isSome ∧ AllHex ds :=
  List.forall_mem_cons

/-! ## The decoder -/

/-- **Hex digits in pairs decode.** Each pair of digits gives one byte, and the bytes, read
    big-endian, have the value of the digits. -/
theorem hexDecodeDigits_ok : ∀ ds : List Char, AllHex ds → ds.length % 2 = 0 →
    ∃ bytes, hexDecodeDigits ds = .ok bytes ∧ 2 * bytes.length = ds.length ∧
      digitsValue 256 (bytes.map UInt8.toNat) = digitsValue 16 (hexDigits ds)
  | [], _, _ => ⟨[], rfl, rfl, rfl⟩
  | [_], _, h => absurd h (by simp)
  | a :: b :: rest, hhex, hlen => by
    obtain ⟨ha, hb, hrest⟩ : _ ∧ _ ∧ AllHex rest := by simpa only [allHex_cons] using hhex
    obtain ⟨x, hx⟩ := Option.isSome_iff_exists.1 ha
    obtain ⟨y, hy⟩ := Option.isSome_iff_exists.1 hb
    obtain ⟨bytes, hdec, hl, hv⟩ := hexDecodeDigits_ok rest hrest (by simp at hlen; omega)
    have hxl := hexDigitValue_lt hx
    have hyl := hexDigitValue_lt hy
    have hbyte : (UInt8.ofNat (16 * x + y)).toNat = 16 * x + y := Nat.mod_eq_of_lt (by omega)
    have hpow : (256 : Nat) ^ bytes.length = 16 ^ rest.length := by
      rw [← hl, pow_mul]; rfl
    refine ⟨UInt8.ofNat (16 * x + y) :: bytes, ?_, by simp only [List.length_cons]; omega, ?_⟩
    · simp only [hexDecodeDigits, hx, hy, hdec]; rfl
    · simp only [hexDigits, List.map_cons, digitsValue_cons, hbyte, hpow, List.length_map, hx, hy,
        Option.getD_some] at hv ⊢
      rw [hv, List.length_cons, List.length_map, pow_succ]
      ring

/-- **Anything else fails**, with `ErrSyntax` or `ErrOddLength`. -/
theorem hexDecodeDigits_error : ∀ ds : List Char, ¬ (AllHex ds ∧ ds.length % 2 = 0) →
    ∃ e, hexDecodeDigits ds = .error e ∧
      (e = "invalid hex string" ∨ e = "hex string of odd length")
  | [], h => absurd ⟨nofun, rfl⟩ h
  | [c], _ => by
    unfold hexDecodeDigits
    split
    · exact ⟨_, rfl, .inr rfl⟩
    · exact ⟨_, rfl, .inl rfl⟩
  | a :: b :: rest, h => by
    unfold hexDecodeDigits
    split
    · next x y ha hb =>
      have hrest : ¬ (AllHex rest ∧ rest.length % 2 = 0) := fun ⟨hhex, hlen⟩ =>
        h ⟨by simp [ha, hb, hhex], by simp only [List.length_cons]; omega⟩
      obtain ⟨e, he, hee⟩ := hexDecodeDigits_error rest hrest
      exact ⟨e, by simp only [he]; rfl, hee⟩
    · exact ⟨_, rfl, .inl rfl⟩

/-- `ParseHexOrString` of `0x` and digits is the decoding of the digits. -/
theorem parseHexOrString_hex (ds : List Char) :
    parseHexOrString ("0x".toList ++ ds) = hexDecodeDigits ds := by
  have hdec : hexutilDecode ("0x".toList ++ ds) = hexDecodeDigits ds := by
    simp [hexutilDecode]
  unfold parseHexOrString
  rw [hdec]
  by_cases h : AllHex ds ∧ ds.length % 2 = 0
  · obtain ⟨bytes, hb, -⟩ := hexDecodeDigits_ok ds h.1 h.2
    rw [hb]
  · obtain ⟨e, he, rfl | rfl⟩ := hexDecodeDigits_error ds h <;> rw [he] <;> rfl

/-! ## `UnmarshalJSON` -/

/-- A failed call leaves the receiver as it was, whatever the JSON. -/
theorem CustomBytes32.unmarshalJSON_error (b : CustomBytes32) (data : JsonBody)
    (h : (b.unmarshalJSON data).1 ≠ .ok ()) : (b.unmarshalJSON data).2 = b := by
  revert h
  unfold CustomBytes32.unmarshalJSON
  split
  · exact fun _ => rfl
  dsimp only
  split
  · exact fun _ => rfl
  split
  · exact fun h => absurd rfl h
  · exact fun _ => rfl

/-- On a JSON string, the call decodes the padded digits. -/
theorem CustomBytes32.unmarshalJSON_string (b : CustomBytes32) (s : String) :
    b.unmarshalJSON (.json (.string s)) =
      match hexDecodeDigits (padLeftZeros 64 (trimPrefix s.toList "0x".toList)) with
      | .error e => (.error e, b)
      | .ok bytes =>
        if h : bytes.length = 32 then (.ok (), ⟨bytes, h⟩)
        else (.error ("invalid length for Bytes32: got " ++ toString bytes.length ++ ", want 32"),
          b) := by
  simp only [CustomBytes32.unmarshalJSON, unmarshalString, parseHexOrString_hex]

/-! ## Padding -/

theorem allHex_padLeftZeros (width : Nat) (ds : List Char) :
    AllHex (padLeftZeros width ds) ↔ AllHex ds := by
  simp only [AllHex, padLeftZeros, List.mem_append, List.mem_replicate]
  constructor
  · exact fun h c hc => h c (.inr hc)
  · rintro h c (⟨-, rfl⟩ | hc)
    exacts [rfl, h c hc]

theorem hexDigits_padLeftZeros (width : Nat) (ds : List Char) :
    hexDigits (padLeftZeros width ds) = List.replicate (width - ds.length) 0 ++ hexDigits ds := by
  simp only [hexDigits, padLeftZeros, List.map_append, List.map_replicate]
  rfl

theorem length_padLeftZeros (width : Nat) (ds : List Char) :
    (padLeftZeros width ds).length = max width ds.length := by
  simp only [padLeftZeros, List.length_append, List.length_replicate]
  omega

/-- Padding twice pads once. -/
theorem padLeftZeros_padLeftZeros (width : Nat) (ds : List Char) :
    padLeftZeros width (padLeftZeros width ds) = padLeftZeros width ds := by
  show List.replicate (width - (padLeftZeros width ds).length) '0' ++ padLeftZeros width ds = _
  rw [length_padLeftZeros, show width - max width ds.length = 0 by omega, List.replicate_zero,
    List.nil_append]

/-! ## The field's specification -/

/-- At most 64 hex digits are accepted, as 32 bytes of their value. -/
theorem CustomBytes32.unmarshalJSON_accepts (b : CustomBytes32) (s : String)
    (h : (trimPrefix s.toList "0x".toList).length ≤ 64 ∧ AllHex (trimPrefix s.toList "0x".toList)) :
    ∃ bytes, ∃ hb : bytes.length = 32,
      b.unmarshalJSON (.json (.string s)) = (.ok (), ⟨bytes, hb⟩) ∧
      digitsValue 256 (bytes.map UInt8.toNat) =
        digitsValue 16 (hexDigits (trimPrefix s.toList "0x".toList)) := by
  set digits := trimPrefix s.toList "0x".toList
  have hlen : (padLeftZeros 64 digits).length = 64 := by rw [length_padLeftZeros]; omega
  obtain ⟨bytes, hdec, hl, hv⟩ := hexDecodeDigits_ok (padLeftZeros 64 digits)
    ((allHex_padLeftZeros 64 digits).2 h.2) (by rw [hlen])
  have hb : bytes.length = 32 := by omega
  refine ⟨bytes, hb, ?_, ?_⟩
  · rw [CustomBytes32.unmarshalJSON_string, hdec]
    exact dif_pos hb
  · rw [hv, hexDigits_padLeftZeros, digitsValue_replicate_zero]

/-- What is accepted is at most 64 hex digits. -/
theorem CustomBytes32.digits_of_unmarshalJSON_ok (b : CustomBytes32) (s : String)
    (hok : (b.unmarshalJSON (.json (.string s))).1 = .ok ()) :
    (trimPrefix s.toList "0x".toList).length ≤ 64 ∧ AllHex (trimPrefix s.toList "0x".toList) := by
  set digits := trimPrefix s.toList "0x".toList
  rw [CustomBytes32.unmarshalJSON_string] at hok
  by_cases hp : AllHex (padLeftZeros 64 digits) ∧ (padLeftZeros 64 digits).length % 2 = 0
  · obtain ⟨bytes, hdec, hl, -⟩ := hexDecodeDigits_ok _ hp.1 hp.2
    rw [hdec] at hok
    have hb : bytes.length = 32 := by
      by_contra hb
      simp only [hb, dite_false, reduceCtorEq] at hok
    have hlen := length_padLeftZeros 64 digits
    exact ⟨by omega, (allHex_padLeftZeros 64 digits).1 hp.1⟩
  · obtain ⟨e, he, -⟩ := hexDecodeDigits_error _ hp
    rw [he] at hok
    exact nomatch hok

/-- **Errors.** On a JSON string the call fails with one of `hexutil`'s two errors, or, for more
    than 64 digits in pairs, with the length check's message for half as many bytes. -/
theorem CustomBytes32.unmarshalJSON_string_error (b : CustomBytes32) (s : String) {e : String}
    (h : (b.unmarshalJSON (.json (.string s))).1 = .error e) :
    e = "invalid hex string" ∨ e = "hex string of odd length" ∨
      64 < (trimPrefix s.toList "0x".toList).length ∧
        e = "invalid length for Bytes32: got " ++
          toString ((trimPrefix s.toList "0x".toList).length / 2) ++ ", want 32" := by
  set digits := trimPrefix s.toList "0x".toList
  rw [CustomBytes32.unmarshalJSON_string] at h
  by_cases hp : AllHex (padLeftZeros 64 digits) ∧ (padLeftZeros 64 digits).length % 2 = 0
  · obtain ⟨bytes, hdec, hl, -⟩ := hexDecodeDigits_ok _ hp.1 hp.2
    rw [hdec] at h
    have hlen := length_padLeftZeros 64 digits
    by_cases hb : bytes.length = 32
    · simp only [hb, dite_true, reduceCtorEq] at h
    · simp only [hb, dite_false, Except.error.injEq] at h
      refine .inr (.inr ⟨by omega, ?_⟩)
      rw [← h, show bytes.length = digits.length / 2 by omega]
  · obtain ⟨e', he, hee⟩ := hexDecodeDigits_error _ hp
    rw [he] at h
    obtain rfl := Except.error.inj h
    exact hee.imp_right .inl

/-- **Minimal-length hex.** For every JSON string `s`, with `digits` what is left of `s` once one
    leading `0x` is removed: the call succeeds exactly when `digits` are at most 64 hex digits;
    it then stores 32 bytes whose big-endian value is the value of `digits`; `s` and the
    left-zero-padding of `digits` to 64 digits decode alike; and a failure leaves the receiver as
    it was. -/
theorem unmarshalJSON_hex (b : CustomBytes32) (s : String) :
    let digits := trimPrefix s.toList "0x".toList
    let r := b.unmarshalJSON (.json (.string s))
    (r.1 = .ok () ↔ digits.length ≤ 64 ∧ AllHex digits) ∧
    (r.1 = .ok () → digitsValue 256 (r.2.bytes.map UInt8.toNat) = digitsValue 16 (hexDigits digits)) ∧
    r = b.unmarshalJSON
      (.json (.string ("0x" ++ String.mk (List.replicate (64 - digits.length) '0' ++ digits)))) ∧
    (r.1 ≠ .ok () → r.2 = b) := by
  intro digits r
  have hpad : trimPrefix ("0x" ++ String.mk (List.replicate (64 - digits.length) '0' ++ digits)).toList
      "0x".toList = padLeftZeros 64 digits := by
    simp [trimPrefix, padLeftZeros]
  refine ⟨⟨CustomBytes32.digits_of_unmarshalJSON_ok b s, fun h => ?_⟩, fun hr => ?_, ?_,
    CustomBytes32.unmarshalJSON_error b _⟩
  · obtain ⟨bytes, hb, hres, -⟩ := CustomBytes32.unmarshalJSON_accepts b s h
    simp only [r, hres]
  · obtain ⟨bytes, hb, hres, hv⟩ :=
      CustomBytes32.unmarshalJSON_accepts b s (CustomBytes32.digits_of_unmarshalJSON_ok b s hr)
    simpa only [r, hres] using hv
  · simp only [r, CustomBytes32.unmarshalJSON_string, hpad, padLeftZeros_padLeftZeros]

end Proposer
