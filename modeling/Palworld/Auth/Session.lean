import Palworld.Lib.Base64
import Palworld.Lib.Dict
import Mathlib.Data.Rat.Defs

/-!
# Session tokens

`verify_session_token` splits a token into a payload and its signature. The digest and
the JSON parser are parameters.
-/

open Lib

namespace Palworld.Auth

inductive PyError
  | typeError       -- `hmac.compare_digest` on a text that is not ASCII
  | attributeError  -- `.get` on a payload that is no object
  | recursionError  -- `json.loads` on a payload that is nested too deeply
  deriving DecidableEq

/-- A JSON number, a boolean counting as 0 or 1. -/
inductive JsonNumber
  | finite (x : ℚ)
  | posInf
  | negInf
  | nan

def JsonNumber.before (x : JsonNumber) (t : ℚ) : Bool :=
  match x with
  | .finite x => x < t
  | .negInf => true
  | .posInf | .nan => false

inductive JsonValue
  | str (s : Text)
  | number (x : JsonNumber)
  | other

/-- What `json.loads` returns, as far as the token check looks at it. -/
inductive JsonPayload
  | object (fields : List (Text × JsonValue))
  | notObject

inductive JsonError
  | valueError  -- `JSONDecodeError`, or an integer of too many digits
  | recursionError

structure Libraries where
  /-- `hmac.new(key, message, sha256).digest()`. -/
  hmacSha256 : List UInt8 → List UInt8 → List UInt8
  jsonLoads : Text → Except JsonError JsonPayload

variable (lib : Libraries)

def compareDigest (a b : Text) : Except PyError Bool :=
  if a.all isAscii && b.all isAscii then .ok (a = b) else .error .typeError

def rstripPadding (t : Text) : Text := (t.reverse.dropWhile (· = '=')).reverse

def signatureOf (secretKey payloadB64 : Text) : Text :=
  rstripPadding (urlsafeB64encode (lib.hmacSha256 (utf8Encode secretKey) (utf8Encode payloadB64)))

def payloadJson (payloadB64 : Text) : Option Text :=
  let padding := List.replicate ((4 - payloadB64.length % 4) % 4) '='
  (urlsafeB64decode (utf8Encode (payloadB64 ++ padding))).bind utf8Decode

def payloadUser (now : ℚ) (fields : List (Text × JsonValue)) : Option Text :=
  match lookup (lit "exp") fields with
  | some (.number exp) =>
    if exp.before now then none
    else
      match lookup (lit "sub") fields with
      | some (.str username) => if username = [] then none else some username
      | _ => none
  | _ => none

def verifySessionToken (now : ℚ) (token secretKey : Text) : Except PyError (Option Text) :=
  match token.splitOn '.' with
  | [payloadB64, sigB64] =>
    match compareDigest sigB64 (signatureOf lib secretKey payloadB64) with
    | .error err => .error err
    | .ok false => .ok none
    | .ok true =>
      match payloadJson payloadB64 with
      | none => .ok none
      | some json =>
        match lib.jsonLoads json with
        | .error .valueError => .ok none
        | .error .recursionError => .error .recursionError
        | .ok .notObject => .error .attributeError
        | .ok (.object fields) => .ok (payloadUser now fields)
  | _ => .ok none

/-! ## When the check raises -/

/-- The payload is signed JSON that the check does not expect. -/
def PayloadRaises (payloadB64 : Text) : Prop :=
  ∃ json, payloadJson payloadB64 = some json ∧
    (lib.jsonLoads json = .ok .notObject ∨ lib.jsonLoads json = .error .recursionError)

/-- A token of two segments whose signature is not ASCII, or is right on a payload that is no object. -/
def TokenRaises (token secretKey : Text) : Prop :=
  ∃ payloadB64 sigB64, token.splitOn '.' = [payloadB64, sigB64] ∧
    (sigB64.all isAscii = false ∨
      sigB64 = signatureOf lib secretKey payloadB64 ∧ PayloadRaises lib payloadB64)

theorem isAscii_signatureOf (secretKey payloadB64 : Text) : (signatureOf lib secretKey payloadB64).all isAscii = true := by
  have hall := List.all_eq_true.mp
    (isAscii_urlsafeB64encode (lib.hmacSha256 (utf8Encode secretKey) (utf8Encode payloadB64)))
  rw [List.all_eq_true]
  intro c hc
  apply hall
  rw [signatureOf, rstripPadding, List.mem_reverse] at hc
  exact List.mem_reverse.mp ((List.dropWhile_sublist _).subset hc)

theorem verifySessionToken_raises (now : ℚ) (token secretKey : Text) :
    (∃ err, verifySessionToken lib now token secretKey = .error err) ↔ TokenRaises lib token secretKey := by
  unfold verifySessionToken TokenRaises PayloadRaises
  split
  · rename_i payloadB64 sigB64 hsplit
    have hown := isAscii_signatureOf lib secretKey payloadB64
    simp only [compareDigest, hown, Bool.and_true, hsplit, List.cons.injEq, and_true]
    constructor
    · rintro ⟨err, h⟩
      refine ⟨payloadB64, sigB64, ⟨rfl, rfl⟩, ?_⟩
      -- The computed signature is ASCII, so the comparison raises on the other one only.
      cases hascii : sigB64.all isAscii with
      | false => exact .inl rfl
      | true =>
        right
        rw [hascii, if_pos rfl] at h
        cases hsig : decide (sigB64 = signatureOf lib secretKey payloadB64) with
        | false =>
          rw [hsig] at h
          cases h
        | true =>
          rw [hsig] at h
          refine ⟨of_decide_eq_true hsig, ?_⟩
          cases hjson : payloadJson payloadB64 with
          | none =>
            rw [hjson] at h
            cases h
          | some json =>
            rw [hjson] at h
            refine ⟨json, rfl, ?_⟩
            rcases hload : lib.jsonLoads json with (_ | _) | (_ | _)
            all_goals simp [hload] at h ⊢
    · rintro ⟨_, _, ⟨rfl, rfl⟩, hascii | ⟨hsig, json, hjson, hload⟩⟩
      · rw [hascii]
        exact ⟨_, rfl⟩
      · rw [hsig, hown, if_pos rfl]
        simp only [decide_true, hjson]
        rcases hload with hload | hload <;> rw [hload] <;> exact ⟨_, rfl⟩
  · rename_i hsplit
    constructor
    · rintro ⟨_, h⟩
      cases h
    · rintro ⟨payloadB64, sigB64, h, -⟩
      exact absurd h (hsplit payloadB64 sigB64)

end Palworld.Auth
