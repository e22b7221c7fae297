import Palworld.Lib.Decimal
import Palworld.Lib.Fields
import Palworld.Lib.Utf8
import Palworld.Logs.Scraper
import Palworld.Network.Probe

/-!
# The default gateway

`resolve_default_gateway` reads the routing table of the kernel, and its answer is the target of a ping.
-/

open Lib

namespace Palworld.Network

/-- The four octets of an address, in network order. -/
structure Address where
  a : UInt8
  b : UInt8
  c : UInt8
  d : UInt8
  deriving DecidableEq

def fallbackIp : Text := lit "192.168.1.1"

/-- `socket.inet_ntoa`. -/
def inetNtoa (address : Address) : Text :=
  ['.'].intercalate ([address.a, address.b, address.c, address.d].map fun octet => Nat.toDigits 10 octet.toNat)

/-- `struct.pack("<I", n)`. -/
def packLittle (n : Int) : Option Address :=
  if 0 ≤ n ∧ n < 2 ^ 32 then
    some ⟨.ofNat (n.toNat % 256), .ofNat (n.toNat / 256 % 256), .ofNat (n.toNat / 65536 % 256), .ofNat (n.toNat / 16777216 % 256)⟩
  else none

/-- `Path("/proc/net/route")`. -/
inductive ProcRoute
  | missing
  | unreadable                     -- `OSError` from `read_text`
  | content (bytes : List UInt8)

inductive RouteFault
  | valueError
  | structError
  deriving DecidableEq

/-- The lines of a text that is read as ASCII. `UnicodeDecodeError` is a `ValueError`. -/
def asciiLines (bytes : List UInt8) : Except RouteFault (List Text) :=
  if bytes.any (· ≥ 128) then .error .valueError
  else
    let text := bytes.map fun b => Char.ofNat b.toNat
    .ok (Logs.splitlines ⟨universalNewlines text, return_notMem_universalNewlines text⟩)

/-- The gateway of a line that is a default route. -/
def gatewayHex (line : Text) : Option Text :=
  match words line with
  | _ :: destination_hex :: gateway_hex :: _ =>
    if destination_hex = lit "00000000" ∧ gateway_hex ≠ lit "00000000" then some gateway_hex else none
  | _ => none

def gatewayLoop : List Text → Except RouteFault (Option Address)
  | [] => .ok none
  | line :: lines =>
    match gatewayHex line with
    | none => gatewayLoop lines
    | some gateway_hex =>
      match hexInt gateway_hex with
      | none => .error .valueError
      | some gateway_packed =>
        match packLittle gateway_packed with
        | none => .error .structError
        | some gateway_bytes => .ok (some gateway_bytes)

/-- Nobody catches the `struct.error`. -/
def gatewayAnswer : Except RouteFault (Option Address) → Except RouteFault Text
  | .ok (some gateway) => .ok (inetNtoa gateway)
  | .ok none | .error .valueError => .ok fallbackIp
  | .error .structError => .error .structError

def resolveDefaultGateway (posix : Bool) (proc_route : ProcRoute) : Except RouteFault Text :=
  if posix then
    match proc_route with
    | .missing | .unreadable => .ok fallbackIp
    | .content bytes => gatewayAnswer (asciiLines bytes >>= fun lines => gatewayLoop (lines.drop 1))
  else .ok fallbackIp

/-! ## What the kernel writes -/

/-- The octets as they stand in the memory of a little-endian machine. -/
def Address.word (address : Address) : Nat :=
  address.a.toNat + 256 * address.b.toNat + 65536 * address.c.toNat + 16777216 * address.d.toNat

/-- A character that may stand within a line. -/
def Plain (c : Char) : Prop := c.toNat < 128 ∧ Logs.isLineBreak c = false

instance (c : Char) : Decidable (Plain c) := inferInstanceAs (Decidable (_ ∧ _))

/-- A route, with its other columns as they are written. -/
structure Route where
  iface : Text
  destination : Address
  gateway : Address
  columns : Text
  named : iface ≠ [] ∧ ∀ c ∈ iface, c.toNat < 128 ∧ isSpace c = false
  plain : ∀ c ∈ columns, Plain c

def Route.line (route : Route) : Text :=
  route.iface ++ '\t' :: hexWord route.destination.word ++ '\t' :: hexWord route.gateway.word ++ '\t' :: route.columns ++ ['\n']

def Address.any : Address := ⟨0, 0, 0, 0⟩

/-- A default route through a gateway. -/
def Route.isDefault (route : Route) : Bool := route.destination = .any ∧ route.gateway ≠ .any

/-- The header is a line of its own. -/
def writeTable (header : Text) (routes : List Route) : List UInt8 :=
  (header ++ '\n' :: routes.flatMap Route.line).map fun c => UInt8.ofNat c.toNat

theorem word_lt (address : Address) : address.word < 2 ^ 32 := by
  have ha := address.a.toNat_lt
  have hb := address.b.toNat_lt
  have hc := address.c.toNat_lt
  have hd := address.d.toNat_lt
  unfold Address.word
  omega

theorem packLittle_word (address : Address) : packLittle (address.word : Int) = some address := by
  have hlt := word_lt address
  have ha := address.a.toNat_lt
  have hb := address.b.toNat_lt
  have hc := address.c.toNat_lt
  have hd := address.d.toNat_lt
  have hoctet (n : Nat) (octet : UInt8) (h : n = octet.toNat) : UInt8.ofNat n = octet := by rw [h, UInt8.ofNat_toNat]
  unfold packLittle
  rw [if_pos (by omega), Int.toNat_natCast]
  unfold Address.word
  rw [hoctet _ address.a (by omega), hoctet _ address.b (by omega), hoctet _ address.c (by omega), hoctet _ address.d (by omega)]

theorem hexWord_any : hexWord Address.any.word = lit "00000000" := by decide +kernel

theorem hexWord_eq_zero (address : Address) : hexWord address.word = lit "00000000" ↔ address = .any := by
  rw [← hexWord_any]
  constructor
  · intro h
    have hword := hexWord_injective (word_lt address) (word_lt .any) h
    have hpacked := packLittle_word address
    rw [hword, packLittle_word] at hpacked
    exact (Option.some.inj hpacked).symm
  · rintro rfl
    rfl

/-! ## Reading it back -/

def Route.body (route : Route) : Text :=
  route.iface ++ '\t' :: (hexWord route.destination.word ++ '\t' :: (hexWord route.gateway.word ++ '\t' :: route.columns))

theorem line_eq (route : Route) : route.line = route.body ++ ['\n'] := by
  simp [Route.line, Route.body]

theorem isLineBreak_of_solid {c : Char} (h : isSpace c = false) : Logs.isLineBreak c = false := by
  unfold isSpace at h
  unfold Logs.isLineBreak
  simp only [Bool.or_eq_false_iff, Bool.and_eq_false_iff, decide_eq_false_iff_not, beq_eq_false_iff_ne] at h ⊢
  omega

theorem hexWord_solid (n : Nat) : ∀ c ∈ hexWord n, c.toNat < 128 ∧ isSpace c = false := by
  intro c hc
  have halnum := (hexWord_digits n c hc).1
  refine ⟨?_, ?_⟩
  · rw [isAlphanum_iff_toNat] at halnum
    omega
  · by_contra hspace
    rw [isAlphanum_of_isSpace (by simpa using hspace)] at halnum
    cases halnum

theorem body_plain (route : Route) : ∀ c ∈ route.body, Plain c := by
  have hsolid {t : Text} (h : ∀ c ∈ t, c.toNat < 128 ∧ isSpace c = false) (c : Char) (hc : c ∈ t) : Plain c :=
    ⟨(h c hc).1, isLineBreak_of_solid (h c hc).2⟩
  have htab : Plain '\t' := by decide
  intro c hc
  simp only [Route.body, List.mem_append, List.mem_cons] at hc
  rcases hc with hc | rfl | hc | rfl | hc | rfl | hc
  · exact hsolid route.named.2 c hc
  · exact htab
  · exact hsolid (hexWord_solid _) c hc
  · exact htab
  · exact hsolid (hexWord_solid _) c hc
  · exact htab
  · exact route.plain c hc

/-- Lines, each with its end. -/
def joined (lines : List Text) : Text := lines.flatMap fun line => line ++ ['\n']

theorem linesWithEnds_joined {lines : List Text} (h : ∀ line ∈ lines, ∀ c ∈ line, Plain c) :
    linesWithEnds Logs.isLineBreak (joined lines) = lines.map fun line => line ++ ['\n'] := by
  induction lines with
  | nil => rfl
  | cons line lines ih =>
    rw [List.forall_mem_cons] at h
    unfold joined
    rw [List.flatMap_cons, List.append_assoc, List.singleton_append, linesWithEnds_body (fun c hc => (h.1 c hc).2) rfl]
    exact congrArg _ (ih h.2)

theorem asciiLines_joined {lines : List Text} (h : ∀ line ∈ lines, ∀ c ∈ line, Plain c) :
    asciiLines ((joined lines).map fun c => UInt8.ofNat c.toNat) = .ok lines := by
  have hascii : ∀ c ∈ joined lines, c.toNat < 128 ∧ c ≠ '\r' := by
    intro c hc
    obtain ⟨line, hline, hc⟩ := List.mem_flatMap.mp hc
    rcases List.mem_append.mp hc with hc | hc
    · have hplain := h line hline c hc
      refine ⟨hplain.1, ?_⟩
      rintro rfl
      exact absurd hplain.2 (by decide)
    · rw [List.mem_singleton.mp hc]
      decide
  have hbyte : ∀ c ∈ joined lines, (UInt8.ofNat c.toNat).toNat = c.toNat := fun c hc => by
    have hlt := (hascii c hc).1
    exact toNat_ofNat (by omega)
  have hbytes : ((joined lines).map fun c => UInt8.ofNat c.toNat).any (· ≥ 128) = false := by
    rw [List.any_map, List.any_eq_false]
    intro c hc
    have hlt := (hascii c hc).1
    rw [← hbyte c hc] at hlt
    simpa [UInt8.lt_iff_toNat_lt] using hlt
  have htext : ((joined lines).map fun c => UInt8.ofNat c.toNat).map (fun b => Char.ofNat b.toNat) = joined lines := by
    rw [List.map_map]
    conv_rhs => rw [← List.map_id (joined lines)]
    refine List.map_congr_left fun c hc => ?_
    rw [Function.comp_apply, hbyte c hc, Char.ofNat_toNat]
    rfl
  have hnewlines : universalNewlines (joined lines) = joined lines := universalNewlines_eq fun hc => (hascii _ hc).2 rfl
  unfold asciiLines Logs.splitlines
  rw [hbytes, htext]
  simp only [hnewlines, linesWithEnds_joined h, List.map_map, Bool.false_eq_true, if_false]
  refine congrArg Except.ok ?_
  conv_rhs => rw [← List.map_id lines]
  refine List.map_congr_left fun line hline => ?_
  exact takeWhile_append_stop (p := fun c => !Logs.isLineBreak c) (b := []) rfl |>.trans
    (List.takeWhile_eq_self_iff.mpr fun c hc => by rw [(h line hline c hc).2]; rfl)

theorem gatewayHex_body (route : Route) : gatewayHex route.body = if route.isDefault then some (hexWord route.gateway.word) else none := by
  have hne (n : Nat) : hexWord n ≠ [] := List.cons_ne_nil _ _
  have hsolid (n : Nat) : ∀ c ∈ hexWord n, isSpace c = false := fun c hc => (hexWord_solid n c hc).2
  have htab : isSpace '\t' = true := by decide
  unfold gatewayHex Route.body
  rw [words_cons route.named.1 (fun c hc => (route.named.2 c hc).2) htab, words_cons (hne _) (hsolid _) htab,
    words_cons (hne _) (hsolid _) htab]
  simp only [hexWord_eq_zero, ne_eq, Route.isDefault, decide_eq_true_eq]

theorem gatewayLoop_next {line : Text} (h : gatewayHex line = none) (lines : List Text) : gatewayLoop (line :: lines) = gatewayLoop lines := by
  rw [gatewayLoop, h]

theorem gatewayLoop_found {line hex : Text} {n : Int} {address : Address} (hhex : gatewayHex line = some hex) (hn : hexInt hex = some n)
    (haddress : packLittle n = some address) (lines : List Text) : gatewayLoop (line :: lines) = .ok (some address) := by
  rw [gatewayLoop, hhex]
  dsimp only
  rw [hn]
  dsimp only
  rw [haddress]

theorem gatewayLoop_bodies (routes : List Route) :
    gatewayLoop (routes.map Route.body) = .ok ((routes.find? Route.isDefault).map Route.gateway) := by
  induction routes with
  | nil => rfl
  | cons route routes ih =>
    have hhex := gatewayHex_body route
    rw [List.map_cons, List.find?_cons]
    cases hdefault : route.isDefault with
    | false =>
      rw [hdefault, if_neg (by simp)] at hhex
      rw [gatewayLoop_next hhex]
      exact ih
    | true =>
      rw [hdefault, if_pos rfl] at hhex
      exact gatewayLoop_found hhex (hexInt_hexWord (word_lt _)) (packLittle_word _) _

/-- **The gateway that is found is the gateway of the first default route**, whatever else is in the table. -/
theorem gateway_of_routes (header : Text) (hheader : ∀ c ∈ header, Plain c) (routes : List Route) :
    resolveDefaultGateway true (.content (writeTable header routes)) =
      .ok (((routes.find? Route.isDefault).map fun route => inetNtoa route.gateway).getD fallbackIp) := by
  have htable : writeTable header routes = (joined (header :: routes.map Route.body)).map fun c => UInt8.ofNat c.toNat := by
    unfold writeTable joined
    rw [List.flatMap_cons, List.flatMap_map, List.append_assoc, show Route.line = fun route => route.body ++ ['\n'] from funext line_eq]
    rfl
  have hplain : ∀ line ∈ header :: routes.map Route.body, ∀ c ∈ line, Plain c := by
    rw [List.forall_mem_cons, List.forall_mem_map]
    exact ⟨hheader, fun route _ => body_plain route⟩
  unfold resolveDefaultGateway
  rw [if_pos rfl, htable]
  dsimp only
  rw [asciiLines_joined hplain]
  change gatewayAnswer (gatewayLoop (routes.map Route.body)) = _
  rw [gatewayLoop_bodies]
  cases routes.find? Route.isDefault with
  | none => rfl
  | some route => rfl

def onLink : Route where
  iface := lit "eth0"
  destination := ⟨10, 0, 0, 0⟩
  gateway := .any
  columns := lit "0001\t0\t0\t100"
  named := ⟨by decide, forall_of_all (by decide)⟩
  plain := forall_of_all (by decide)

def viaRouter : Route := { onLink with destination := .any, gateway := ⟨10, 0, 0, 254⟩ }

/-- A network on the link, and the default route behind it. -/
theorem gateway_of_routes_router :
    resolveDefaultGateway true (.content (writeTable (lit "Iface\tDestination\tGateway ") [onLink, viaRouter])) = .ok (lit "10.0.0.254") :=
  (gateway_of_routes _ (forall_of_all (by decide)) [onLink, viaRouter]).trans (by decide +kernel)

/-! ## Any table -/

theorem parseOctet_toDigits : ∀ n < 256, parseOctet (Nat.toDigits 10 n) = some n := by decide +kernel

theorem parseIPv4_inetNtoa (address : Address) : (parseIPv4 (inetNtoa address)).isSome := by
  have hdigits (octet : UInt8) : ∀ c ∈ Nat.toDigits 10 octet.toNat, c.isDigit = true := List.all_eq_true.mp isDigit_toDigits
  have hparts : (inetNtoa address).splitOn '.' =
      [address.a, address.b, address.c, address.d].map fun octet => Nat.toDigits 10 octet.toNat := by
    refine List.splitOn_intercalate '.' ?_ (by simp)
    rw [List.forall_mem_map]
    intro octet _ hdot
    exact absurd (hdigits octet _ hdot) (by decide)
  have hslash : '/' ∉ inetNtoa address := by
    intro hmem
    rcases mem_intercalate hmem with h | ⟨part, hpart, hc⟩
    · exact absurd h (by decide)
    · obtain ⟨octet, -, rfl⟩ := List.mem_map.mp hpart
      exact absurd (hdigits octet _ hc) (by decide)
  unfold parseIPv4
  rw [if_neg hslash, hparts]
  simp only [List.map_cons, List.map_nil]
  rw [parseOctet_toDigits _ address.a.toNat_lt, parseOctet_toDigits _ address.b.toNat_lt, parseOctet_toDigits _ address.c.toNat_lt,
    parseOctet_toDigits _ address.d.toNat_lt]
  rfl

/-- An IPv4 address is passed on as it is. -/
theorem validate_ipv4 {t : Text} (h : (parseIPv4 t).isSome) : validateProbeTarget (.str t) = .ok t ∧ Inert t := by
  obtain ⟨n, hn⟩ := Option.isSome_iff_exists.mp h
  have hinert := isIPv4_inert hn
  have hsolid : ∀ c ∈ t, isSpace c = false := by
    intro c hc
    rcases parseIPv4_chars hn c hc with hdigit | rfl
    · exact isSpace_of_isNumeralChar (isNumeralChar_of_isDigit hdigit)
    · decide
  have hne : t ≠ [] := by
    rintro rfl
    exact absurd h (by decide)
  have hflag : t.head? ≠ some '-' := by
    intro hhead
    rcases parseIPv4_chars hn '-' (List.mem_of_head? hhead) with hdigit | hdot
    · exact absurd hdigit (by decide)
    · exact absurd hdot (by decide)
  refine ⟨?_, hinert, hflag⟩
  unfold validateProbeTarget isIpAddress
  dsimp only
  rw [strip_of_solid hsolid, h, if_neg hne, if_neg hflag]
  rfl

/-- The first default route names a gateway beyond 32 bits. -/
def Overflows (proc_route : ProcRoute) : Prop :=
  ∃ bytes lines gateway_hex gateway_packed, proc_route = .content bytes ∧ asciiLines bytes = .ok lines ∧
    (lines.drop 1).findSome? gatewayHex = some gateway_hex ∧ hexInt gateway_hex = some gateway_packed ∧ packLittle gateway_packed = none

theorem gatewayLoop_eq (lines : List Text) : gatewayLoop lines =
    match lines.findSome? gatewayHex with
    | none => .ok none
    | some gateway_hex =>
      match hexInt gateway_hex with
      | none => .error .valueError
      | some gateway_packed =>
        match packLittle gateway_packed with
        | none => .error .structError
        | some gateway_bytes => .ok (some gateway_bytes) := by
  induction lines with
  | nil => rfl
  | cons line lines ih =>
    rw [gatewayLoop, List.findSome?_cons]
    cases gatewayHex line with
    | none => exact ih
    | some gateway_hex => rfl

/-- What the table may make of a text: an address, or the fault of a number that is too large. -/
theorem gatewayAnswer_cases (bytes : List UInt8) :
    (¬ Overflows (.content bytes) ∧ ∃ ip, gatewayAnswer (asciiLines bytes >>= fun lines => gatewayLoop (lines.drop 1)) = .ok ip ∧
        (parseIPv4 ip).isSome) ∨
      Overflows (.content bytes) ∧ gatewayAnswer (asciiLines bytes >>= fun lines => gatewayLoop (lines.drop 1)) = .error .structError := by
  have hfallback : (parseIPv4 fallbackIp).isSome := by decide +kernel
  cases hlines : asciiLines bytes with
  | error fault =>
    have hfault : fault = .valueError := by
      unfold asciiLines at hlines
      split at hlines
      · cases hlines
        rfl
      · cases hlines
    subst hfault
    refine .inl ⟨?_, fallbackIp, rfl, hfallback⟩
    rintro ⟨_, _, _, _, ⟨⟩, hother, -⟩
    rw [hlines] at hother
    cases hother
  | ok lines =>
    change (_ ∧ ∃ ip, gatewayAnswer (gatewayLoop (lines.drop 1)) = .ok ip ∧ _) ∨ _ ∧ gatewayAnswer (gatewayLoop (lines.drop 1)) = _
    have hoverflows : Overflows (.content bytes) ↔ ∃ gateway_hex gateway_packed, (lines.drop 1).findSome? gatewayHex = some gateway_hex ∧
        hexInt gateway_hex = some gateway_packed ∧ packLittle gateway_packed = none := by
      constructor
      · rintro ⟨_, _, hex, packed, ⟨⟩, hother, hfields⟩
        rw [hlines] at hother
        cases hother
        exact ⟨hex, packed, hfields⟩
      · rintro ⟨hex, packed, hfields⟩
        exact ⟨bytes, lines, hex, packed, rfl, hlines, hfields⟩
    rw [hoverflows, gatewayLoop_eq]
    cases hhex : (lines.drop 1).findSome? gatewayHex with
    | none => exact .inl ⟨by simp, fallbackIp, rfl, hfallback⟩
    | some gateway_hex =>
      cases hpacked : hexInt gateway_hex with
      | none => exact .inl ⟨by simp [hpacked], fallbackIp, by simp only [hpacked, gatewayAnswer], hfallback⟩
      | some gateway_packed =>
        cases haddress : packLittle gateway_packed with
        | none => exact .inr ⟨⟨gateway_hex, gateway_packed, rfl, hpacked, haddress⟩, by simp only [hpacked, haddress, gatewayAnswer]⟩
        | some address =>
          refine .inl ⟨?_, inetNtoa address, by simp only [hpacked, haddress, gatewayAnswer], parseIPv4_inetNtoa address⟩
          rintro ⟨_, packed, ⟨⟩, hpacked', hnone⟩
          rw [hpacked] at hpacked'
          cases hpacked'
          rw [haddress] at hnone
          cases hnone

/-- **Whatever the table holds, the ping gets an address**, as it was found and without a flag in it, unless the table names a
number beyond 32 bits. -/
theorem gateway_is_probed (posix : Bool) (proc_route : ProcRoute) :
    match resolveDefaultGateway posix proc_route with
    | .ok ip => ¬ (posix = true ∧ Overflows proc_route) ∧ validateProbeTarget (.str ip) = .ok ip ∧ Inert ip
    | .error fault => fault = .structError ∧ posix = true ∧ Overflows proc_route := by
  have hfallback : (parseIPv4 fallbackIp).isSome := by decide +kernel
  unfold resolveDefaultGateway
  cases posix with
  | false => exact ⟨by simp, validate_ipv4 hfallback⟩
  | true =>
    rw [if_pos rfl]
    cases proc_route with
    | missing => exact ⟨by simp [Overflows], validate_ipv4 hfallback⟩
    | unreadable => exact ⟨by simp [Overflows], validate_ipv4 hfallback⟩
    | content bytes =>
      dsimp only
      rcases gatewayAnswer_cases bytes with ⟨hfits, ip, hip, hparse⟩ | ⟨hoverflows, hfault⟩
      · rw [hip]
        exact ⟨fun h => hfits h.2, validate_ipv4 hparse⟩
      · rw [hfault]
        exact ⟨rfl, rfl, hoverflows⟩

end Palworld.Network
