import Mathlib.Algebra.Group.Nat.Defs
import Simterpose.Lib.Except
import Simterpose.Lib.Fresh
import Simterpose.Network

/-! # The addresses of the hosts

`init_host_list` gives every host of the platform an address: the one its property `ip`
names, or the next one that is not in use. Two dictionaries are filled on the way,
`list_host` by the name of the host and `list_ip` by the text of the address.
-/

namespace Simterpose

open Lib

/-! ## Addresses as text -/

/-- The bytes of an address as they lie in memory. -/
def addressByte (ip : UInt32) (i : Nat) : Nat := ip.toNat / 256 ^ i % 256

/-- `inet_ntoa` -/
def inetNtoa (ip : UInt32) : String :=
  String.ofList (Nat.toDigits 10 (addressByte ip 0) ++ '.' :: (Nat.toDigits 10 (addressByte ip 1) ++
    '.' :: (Nat.toDigits 10 (addressByte ip 2) ++ '.' :: Nat.toDigits 10 (addressByte ip 3))))

/-- The value of one part of a dotted quad. -/
def parsePart (part : List Char) : Option Nat :=
  if part ≠ [] ∧ part.all (·.isDigit) then
    let n := part.foldl (fun n c => 10 * n + (c.toNat - '0'.toNat)) 0
    if n < 256 then some n else none
  else none

def inaddrNone : UInt32 := 0xffffffff

/-- `inet_addr` on dotted quads in decimal. -/
def inetAddr (cp : String) : UInt32 :=
  match (cp.toList.splitOn '.').map parsePart with
  | [some a, some b, some c, some d] => UInt32.ofNat (a + 256 * b + 256 ^ 2 * c + 256 ^ 3 * d)
  | _ => inaddrNone

/-- A dotted quad as `inet_ntoa` writes it. -/
def CanonicalQuad (cp : String) : Prop := ∃ ip, cp = inetNtoa ip

theorem parsePart_toDigits {n : Nat} (byte : n < 256) : parsePart (Nat.toDigits 10 n) = some n := by
  have all : ∀ n : Fin 256, parsePart (Nat.toDigits 10 n) = some n.val := by decide +kernel
  exact all ⟨n, byte⟩

theorem ne_point_of_mem_toDigits {n : Nat} {c : Char} (mem : c ∈ Nat.toDigits 10 n) : (c == '.') = false := by
  have digit := Nat.isDigit_of_mem_toDigits (by decide) (by decide) mem
  apply beq_false_of_ne
  rintro rfl
  exact absurd digit (by decide)

theorem splitOn_toDigits (n : Nat) (rest : List Char) :
    (Nat.toDigits 10 n ++ '.' :: rest).splitOn '.' = Nat.toDigits 10 n :: rest.splitOn '.' :=
  List.splitOnP_append_cons_of_forall_mem (fun _ => ne_point_of_mem_toDigits) '.' (by decide) rest

theorem splitOn_toDigits_last (n : Nat) : (Nat.toDigits 10 n).splitOn '.' = [Nat.toDigits 10 n] :=
  List.splitOnP_eq_singleton fun _ => ne_point_of_mem_toDigits

theorem addressByte_lt (ip : UInt32) (i : Nat) : addressByte ip i < 256 := Nat.mod_lt _ (by decide)

/-- The four bytes make up the address. -/
theorem ofNat_addressBytes (ip : UInt32) :
    UInt32.ofNat (addressByte ip 0 + 256 * addressByte ip 1 + 256 ^ 2 * addressByte ip 2 +
      256 ^ 3 * addressByte ip 3) = ip := by
  have bound := ip.toNat_lt
  apply UInt32.toNat_inj.mp
  rw [UInt32.toNat_ofNat']
  simp only [addressByte]
  omega

theorem inetAddr_inetNtoa (ip : UInt32) : inetAddr (inetNtoa ip) = ip := by
  have byte := addressByte_lt ip
  unfold inetAddr inetNtoa
  rw [String.toList_ofList, splitOn_toDigits, splitOn_toDigits, splitOn_toDigits, splitOn_toDigits_last]
  simp only [List.map_cons, List.map_nil, parsePart_toDigits (byte _), ofNat_addressBytes]

theorem inetNtoa_injective {a b : UInt32} (same : inetNtoa a = inetNtoa b) : a = b := by
  rw [← inetAddr_inetNtoa a, same, inetAddr_inetNtoa]

theorem CanonicalQuad.inetNtoa_inetAddr {cp : String} (canonical : CanonicalQuad cp) :
    inetNtoa (inetAddr cp) = cp := by
  obtain ⟨ip, rfl⟩ := canonical
  rw [inetAddr_inetNtoa]

/-! ## `init_host_list` -/

/-- A host of the platform with its property `ip`. -/
structure PlatformHost where
  name : String
  ip : Option String
  deriving Repr, DecidableEq

/-- `list_host`, of which the ports are empty, and `list_ip`. -/
structure HostLists where
  listHost : String → Option UInt32 := fun _ => none
  listIp : String → Option String := fun _ => none

/-- The dictionaries with the addresses in use so far. -/
structure HostInit extends HostLists where
  ipList : List UInt32 := []

namespace HostInit

/-- The host gets the address, which is entered under the given text. -/
def give (init : HostInit) (name : String) (ip : UInt32) (text : String) : HostInit where
  listHost := Function.update init.listHost name (some ip)
  listIp := Function.update init.listIp text (some name)
  ipList := init.ipList ++ [ip]

/-- The loop over all hosts: those without an address are kept for later. -/
def givenIps : List PlatformHost → HostInit → HostInit × List PlatformHost
  | [], init => (init, [])
  | host :: hosts, init =>
      match host.ip with
      | none =>
          let (init, noIpList) := givenIps hosts init
          (init, host :: noIpList)
      | some prop => givenIps hosts (init.give host.name (inetAddr prop) prop)

/-- The loop over the hosts without an address. The candidate is only counted up when it is in
    use; with all addresses in use that would go on without end. -/
def missingIps : List PlatformHost → (tempIp : UInt32) → HostInit → Result HostInit
  | [], _, init => .ok init
  | host :: hosts, tempIp, init =>
      match firstUnused (· + 1) init.ipList (init.ipList.length + 1) tempIp with
      | none => .error .endless
      | some tempIp => missingIps hosts tempIp (init.give host.name tempIp (inetNtoa tempIp))

end HostInit

/-- The hosts that the first loop comes to: their number and the index are `int`s. -/
def countedHosts (hosts : List PlatformHost) : List PlatformHost := hosts.take (toCInt hosts.length).toNat

theorem countedHosts_eq {hosts : List PlatformHost} (few : hosts.length < 2 ^ 31) : countedHosts hosts = hosts := by
  apply List.take_of_length_le
  rw [toCInt_of_lt (by omega)]
  exact Nat.le_refl _

/-- `init_host_list` -/
def initHostList (hosts : List PlatformHost) : Result HostLists := do
  let (init, noIpList) := HostInit.givenIps (countedHosts hosts) {}
  let init ← HostInit.missingIps noIpList 1 init
  return init.toHostLists

namespace HostLists

/-- `get_ip_of_host` -/
def getIpOfHost (lists : HostLists) (host : PlatformHost) : Option UInt32 := lists.listHost host.name

/-- `get_host_by_ip` -/
def getHostByIp (lists : HostLists) (hosts : List PlatformHost) (ip : UInt32) : Option PlatformHost :=
  match lists.listIp (inetNtoa ip) with
  | none => none
  | some name => hosts.find? (·.name = name)

end HostLists

namespace HostInit

/-- The dictionaries are what they should be for the pairs of a host and an address given out so
    far, and no host and no address is among these twice. -/
structure Holds (init : HostInit) (given : List (PlatformHost × UInt32)) : Prop where
  listHost : ∀ name ip, init.listHost name = some ip ↔ ∃ host, host.name = name ∧ (host, ip) ∈ given
  listIp : ∀ text name, init.listIp text = some name ↔
    ∃ host ip, host.name = name ∧ inetNtoa ip = text ∧ (host, ip) ∈ given
  ipList : init.ipList = given.map (·.2)
  names : (given.map (·.1.name)).Nodup
  ips : (given.map (·.2)).Nodup

theorem holds_empty : HostInit.Holds {} [] := ⟨by simp, by simp, rfl, .nil, .nil⟩

variable {init : HostInit} {given : List (PlatformHost × UInt32)}

theorem Holds.give (holds : init.Holds given) {host : PlatformHost} {ip : UInt32}
    (newHost : host.name ∉ given.map (·.1.name)) (newIp : ip ∉ init.ipList) :
    (init.give host.name ip (inetNtoa ip)).Holds (given ++ [(host, ip)]) := by
  rw [holds.ipList] at newIp
  constructor
  · intro name ip'
    simp only [HostInit.give, Function.update_apply, List.mem_append, List.mem_singleton,
      Prod.mk.injEq]
    split
    · rename_i here
      subst here
      constructor
      · intro same
        exact ⟨host, rfl, .inr ⟨rfl, (Option.some.inj same).symm⟩⟩
      · rintro ⟨other, sameName, old | ⟨-, rfl⟩⟩
        · exact absurd (sameName ▸ List.mem_map_of_mem old) newHost
        · rfl
    · rename_i apart
      rw [holds.listHost]
      constructor
      · rintro ⟨other, sameName, old⟩
        exact ⟨other, sameName, .inl old⟩
      · rintro ⟨other, sameName, old | ⟨rfl, -⟩⟩
        · exact ⟨other, sameName, old⟩
        · exact absurd sameName.symm apart
  · intro text name
    simp only [HostInit.give, Function.update_apply, List.mem_append, List.mem_singleton,
      Prod.mk.injEq]
    split
    · rename_i here
      subst here
      constructor
      · intro same
        exact ⟨host, ip, Option.some.inj same, rfl, .inr ⟨rfl, rfl⟩⟩
      · rintro ⟨other, ip', sameName, sameText, old | ⟨rfl, -⟩⟩
        · rw [inetNtoa_injective sameText] at old
          exact absurd (List.mem_map_of_mem old) newIp
        · rw [sameName]
    · rename_i apart
      rw [holds.listIp]
      constructor
      · rintro ⟨other, ip', sameName, sameText, old⟩
        exact ⟨other, ip', sameName, sameText, .inl old⟩
      · rintro ⟨other, ip', sameName, sameText, old | ⟨-, rfl⟩⟩
        · exact ⟨other, ip', sameName, sameText, old⟩
        · exact absurd sameText.symm apart
  · simp [HostInit.give, holds.ipList]
  · rw [List.map_append]
    exact holds.names.append (List.nodup_singleton _) (by simpa using newHost)
  · rw [List.map_append]
    exact holds.ips.append (List.nodup_singleton _) (by simpa using newIp)

/-- The hosts with a property get the address it names, and the others are left over. -/
theorem Holds.givenIps {hosts : List PlatformHost} (holds : init.Holds given)
    (names : (given.map (·.1.name) ++ hosts.map (·.name)).Nodup)
    (canonical : ∀ host ∈ hosts, ∀ prop ∈ host.ip, CanonicalQuad prop)
    (distinct : (hosts.filterMap (·.ip)).Nodup)
    (unused : ∀ host ∈ hosts, ∀ prop ∈ host.ip, inetAddr prop ∉ init.ipList) :
    ∃ new, (HostInit.givenIps hosts init).1.Holds (given ++ new) ∧
      new.map (·.1) = hosts.filter (·.ip.isSome) ∧
      (∀ pair ∈ new, ∀ prop ∈ pair.1.ip, pair.2 = inetAddr prop) ∧
      (HostInit.givenIps hosts init).2 = hosts.filter (·.ip.isNone) := by
  induction hosts generalizing init given with
  | nil => exact ⟨[], by simpa [HostInit.givenIps] using holds, rfl, by simp, rfl⟩
  | cons host hosts ih =>
      have later : ∀ other ∈ hosts, other ∈ host :: hosts := fun _ => List.mem_cons_of_mem host
      cases property : host.ip with
      | none =>
          have names' : (given.map (·.1.name) ++ hosts.map (·.name)).Nodup :=
            names.sublist ((List.Sublist.refl _).append (List.sublist_cons_self _ _))
          obtain ⟨new, holds', hosts', given', left⟩ := ih holds names'
            (fun other listed => canonical other (later other listed))
            (by simpa [property] using distinct)
            (fun other listed => unused other (later other listed))
          refine ⟨new, ?_, by simp [property, hosts'], given', ?_⟩
          · simpa [HostInit.givenIps, property] using holds'
          · simp [HostInit.givenIps, property, left]
      | some text =>
          have canonicalText := canonical host (List.mem_cons_self ..) text property
          have newHost : host.name ∉ given.map (·.1.name) := by
            intro old
            exact List.disjoint_of_nodup_append names old (List.mem_cons_self ..)
          have holds₁ := holds.give newHost (unused host (List.mem_cons_self ..) text property)
          rw [canonicalText.inetNtoa_inetAddr] at holds₁
          have others : text ∉ hosts.filterMap (·.ip) ∧ (hosts.filterMap (·.ip)).Nodup := by
            simpa [property] using distinct
          obtain ⟨new, holds', hosts', given', left⟩ := ih holds₁ (by simpa using names)
            (fun other listed => canonical other (later other listed)) others.2
            (by
              intro other listed prop given used
              rcases List.mem_append.mp used with old | same
              · exact unused other (later other listed) prop given old
              · -- two hosts with one address would have one property
                have sameText : prop = text := by
                  rw [← (canonical other (later other listed) prop given).inetNtoa_inetAddr,
                    List.mem_singleton.mp same, canonicalText.inetNtoa_inetAddr]
                exact others.1 (List.mem_filterMap.mpr ⟨other, listed, sameText ▸ given⟩))
          refine ⟨(host, inetAddr text) :: new, ?_, by simp [property, hosts'], ?_, ?_⟩
          · simpa [HostInit.givenIps, property] using holds'
          · intro pair listed prop given
            rcases List.mem_cons.mp listed with rfl | listed
            · rw [property] at given
              cases given
              rfl
            · exact given' pair listed prop given
          · simpa [HostInit.givenIps, property] using left

theorem toNat_iterate_succ (ip : UInt32) (i : Nat) :
    ((· + 1)^[i] ip).toNat = (ip.toNat + i) % 2 ^ 32 := by
  induction i with
  | zero =>
      have bound := ip.toNat_lt
      simp only [Function.iterate_zero, id_eq]
      omega
  | succ i ih =>
      rw [Function.iterate_succ_apply', UInt32.toNat_add, ih]
      simp only [UInt32.toNat_one]
      omega

/-- All other hosts get an address, as long as there are not too many of them. -/
theorem Holds.missingIps {hosts : List PlatformHost} (holds : init.Holds given)
    (names : (given.map (·.1.name) ++ hosts.map (·.name)).Nodup)
    (few : given.length + hosts.length < 2 ^ 32) (tempIp : UInt32) :
    ∃ init' new, HostInit.missingIps hosts tempIp init = .ok init' ∧ init'.Holds (given ++ new) ∧
      new.map (·.1) = hosts := by
  induction hosts generalizing init given tempIp with
  | nil => exact ⟨init, [], rfl, by simpa using holds, rfl⟩
  | cons host hosts ih =>
      have length : init.ipList.length = given.length := by rw [holds.ipList, List.length_map]
      rw [List.length_cons] at few
      obtain ⟨ip, found⟩ : ∃ ip, firstUnused (· + 1) init.ipList (init.ipList.length + 1) tempIp =
          some ip := by
        apply exists_firstUnused
        intro i early j early' same
        have numbers := congrArg UInt32.toNat same
        rw [toNat_iterate_succ, toNat_iterate_succ] at numbers
        omega
      have newHost : host.name ∉ given.map (·.1.name) := by
        intro old
        exact List.disjoint_of_nodup_append names old (List.mem_cons_self ..)
      have holds₁ := holds.give newHost (notMem_of_firstUnused found)
      obtain ⟨init', new, done, holds', hosts'⟩ :=
        ih holds₁ (by simpa using names) (by simp; omega) ip
      refine ⟨init', (host, ip) :: new, ?_, ?_, by simp [hosts']⟩
      · simp only [HostInit.missingIps, found, done]
      · simpa using holds'

/-- What the two dictionaries of a finished list say. -/
theorem Holds.lookups (holds : init.Holds given) {hosts : List PlatformHost}
    (names : (hosts.map (·.name)).Nodup) (all : ∀ host, host ∈ hosts ↔ host ∈ given.map (·.1)) :
    (∀ host ∈ hosts, ∀ ip, init.toHostLists.getIpOfHost host = some ip ↔ (host, ip) ∈ given) ∧
      ∀ ip host, init.toHostLists.getHostByIp hosts ip = some host ↔ (host, ip) ∈ given := by
  have byName : ∀ host ∈ hosts, ∀ other ∈ hosts, host.name = other.name → host = other :=
    fun host listed other listed' same => List.inj_on_of_nodup_map names listed listed' same
  have isHost : ∀ {host ip}, (host, ip) ∈ given → host ∈ hosts :=
    fun pair => (all _).mpr (List.mem_map_of_mem pair)
  constructor
  · intro host listed ip
    rw [HostLists.getIpOfHost, holds.listHost]
    constructor
    · rintro ⟨other, sameName, pair⟩
      rwa [← byName other (isHost pair) host listed sameName]
    · intro pair
      exact ⟨host, rfl, pair⟩
  · intro ip host
    have search : ∀ name, hosts.find? (·.name = name) = some host ↔
        host ∈ hosts ∧ host.name = name := by
      intro name
      constructor
      · intro found
        exact ⟨List.mem_of_find?_eq_some found, by simpa using List.find?_some found⟩
      · rintro ⟨listed, rfl⟩
        cases found : hosts.find? (·.name = host.name) with
        | none => exact absurd (List.find?_eq_none.mp found host listed) (by simp)
        | some other =>
            have sameName : other.name = host.name := by simpa using List.find?_some found
            rw [byName other (List.mem_of_find?_eq_some found) host listed sameName]
    unfold HostLists.getHostByIp
    cases known : init.listIp (inetNtoa ip) with
    | none =>
        refine iff_of_false (by simp) fun pair => ?_
        have entered := (holds.listIp (inetNtoa ip) host.name).mpr ⟨host, ip, rfl, rfl, pair⟩
        rw [known] at entered
        cases entered
    | some name =>
        obtain ⟨other, ip', rfl, sameText, pair⟩ := (holds.listIp _ _).mp known
        cases inetNtoa_injective sameText
        rw [search]
        constructor
        · rintro ⟨listed, sameName⟩
          rwa [byName host listed other (isHost pair) sameName]
        · intro pair'
          have same : (host, ip) = (other, ip) := List.inj_on_of_nodup_map holds.ips pair' pair rfl
          cases same
          exact ⟨isHost pair, rfl⟩

end HostInit

/-- With less than 2^31 hosts `init_host_list` comes to an end; every host has an address, the one it
    was given if it was given one, and no two the same; and `get_host_by_ip` is the way back, which leads from no
    other address to any host. -/
theorem host_addresses_bijective (hosts : List PlatformHost) (few : hosts.length < 2 ^ 31)
    (names : (hosts.map (·.name)).Nodup)
    (canonical : ∀ host ∈ hosts, ∀ prop ∈ host.ip, CanonicalQuad prop)
    (distinct : (hosts.filterMap (·.ip)).Nodup) :
    ∃ lists, initHostList hosts = .ok lists ∧
      (∀ host ∈ hosts, ∃ ip, lists.getIpOfHost host = some ip ∧
        (∀ prop ∈ host.ip, ip = inetAddr prop) ∧ lists.getHostByIp hosts ip = some host) ∧
      (∀ host ∈ hosts, ∀ other ∈ hosts, lists.getIpOfHost host = lists.getIpOfHost other →
        host = other) ∧
      ∀ ip, (∀ host ∈ hosts, lists.getIpOfHost host ≠ some ip) → lists.getHostByIp hosts ip = none := by
  obtain ⟨first, holds, withIp, named, left⟩ := HostInit.holds_empty.givenIps names canonical distinct
    (by simp)
  rw [List.nil_append] at holds
  have parts : (hosts.filter (·.ip.isSome) ++ hosts.filter (·.ip.isNone)).Perm hosts := by
    simpa using List.filter_append_perm (·.ip.isSome) hosts
  have firstNames : first.map (·.1.name) = (hosts.filter (·.ip.isSome)).map (·.name) := by
    rw [← withIp, List.map_map]
    rfl
  have names' : (first.map (·.1.name) ++ (hosts.filter (·.ip.isNone)).map (·.name)).Nodup := by
    rw [firstNames, ← List.map_append]
    exact (parts.map _).nodup_iff.mpr names
  have few' : first.length + (hosts.filter (·.ip.isNone)).length < 2 ^ 32 := by
    have sum := parts.length_eq
    rw [List.length_append, ← withIp, List.length_map] at sum
    omega
  obtain ⟨init, second, done, holds, without⟩ := holds.missingIps names' few' 1
  have hostsOf : ∀ host, host ∈ hosts ↔ host ∈ (first ++ second).map (·.1) := by
    intro host
    rw [List.map_append, withIp, without]
    exact parts.mem_iff.symm
  obtain ⟨ipOf, hostOf⟩ := holds.lookups names hostsOf
  have pairOf : ∀ host ∈ hosts, ∃ ip, (host, ip) ∈ first ++ second := by
    intro host listed
    obtain ⟨⟨_, ip⟩, pair, rfl⟩ := List.mem_map.mp ((hostsOf host).mp listed)
    exact ⟨ip, pair⟩
  refine ⟨init.toHostLists, ?_, fun host listed => ?_, fun host listed other listed' same => ?_,
    fun ip unused => ?_⟩
  · simp only [initHostList, countedHosts_eq few, left]
    rw [done]
    rfl
  · obtain ⟨ip, pair⟩ := pairOf host listed
    refine ⟨ip, (ipOf host listed ip).mpr pair, fun prop given => ?_, (hostOf ip host).mpr pair⟩
    rcases List.mem_append.mp pair with pair | pair
    · exact named _ pair prop given
    · have none_ : host ∈ hosts.filter (·.ip.isNone) := without ▸ List.mem_map_of_mem pair
      rw [List.mem_filter, Option.mem_def.mp given] at none_
      cases none_.2
  · obtain ⟨ip, pair⟩ := pairOf host listed
    have pair' := (ipOf other listed' ip).mp (same ▸ (ipOf host listed ip).mpr pair)
    exact congrArg Prod.fst (List.inj_on_of_nodup_map holds.ips pair pair' rfl)
  · by_contra found
    obtain ⟨host, found⟩ := Option.ne_none_iff_exists'.mp found
    have pair := (hostOf ip host).mp found
    have listed := (hostsOf host).mpr (List.mem_map_of_mem pair)
    exact unused host listed ((ipOf host listed ip).mpr pair)

/-- Hosts with and without addresses in turn; the first two candidates are taken. -/
def mixedPlatform : List PlatformHost :=
  [⟨"Tremblay", none⟩, ⟨"Jupiter", some "1.0.0.0"⟩, ⟨"Fafard", none⟩, ⟨"Ginette", some "162.32.43.1"⟩,
    ⟨"Bourassa", some "2.0.0.0"⟩]

theorem mixed_platform_bijective : ∃ lists, initHostList mixedPlatform = .ok lists ∧
    mixedPlatform.map lists.getIpOfHost = [some 3, some 1, some 4, some 0x012b20a2, some 2] ∧
    lists.getHostByIp mixedPlatform 5 = none ∧
    ∀ host ∈ mixedPlatform, ∃ ip, lists.getIpOfHost host = some ip ∧
      lists.getHostByIp mixedPlatform ip = some host := by
  have quads : ∀ host ∈ mixedPlatform, ∀ prop ∈ host.ip, inetNtoa (inetAddr prop) = prop := by
    decide +kernel
  obtain ⟨lists, done, back, -, -⟩ := host_addresses_bijective mixedPlatform (by decide +kernel)
    (by decide +kernel) (fun host listed prop given => ⟨_, (quads host listed prop given).symm⟩)
    (by decide +kernel)
  obtain ⟨lists', done', ips, unused⟩ : ∃ lists ∈ (initHostList mixedPlatform).toOption,
      mixedPlatform.map lists.getIpOfHost = [some 3, some 1, some 4, some 0x012b20a2, some 2] ∧
        lists.getHostByIp mixedPlatform 5 = none := by decide +kernel
  cases Except.ok.inj (done.symm.trans (eq_ok_of_mem_toOption done'))
  refine ⟨lists, done, ips, unused, fun host listed => ?_⟩
  obtain ⟨ip, here, -, there⟩ := back host listed
  exact ⟨ip, here, there⟩

/-- Hosts without addresses that are named by numbers. -/
def numberedHosts (n : Nat) : List PlatformHost :=
  (List.range n).map fun i => ⟨String.ofList (Nat.toDigits 10 i), none⟩

theorem length_numberedHosts (n : Nat) : (numberedHosts n).length = n := by simp [numberedHosts]

theorem nodup_numberedHosts (n : Nat) : ((numberedHosts n).map (·.name)).Nodup := by
  rw [numberedHosts, List.map_map]
  refine List.nodup_range.map fun i j same => ?_
  have digits : Nat.toDigits 10 i = Nat.toDigits 10 j := String.ofList_injective same
  have value := congrArg (Nat.ofDigitChars 10 · 0) digits
  simpa only [Nat.ofDigitChars_toDigits (show 1 < 10 by decide) (Nat.le_refl 10)] using value

/-- The number of 2^31 hosts is a negative `int`, so that none of them gets an address. -/
theorem many_hosts_without_address :
    (numberedHosts 0x80000000).length < 2 ^ 32 - 1 ∧ ((numberedHosts 0x80000000).map (·.name)).Nodup ∧
      ∃ lists, initHostList (numberedHosts 0x80000000) = .ok lists ∧
        ∀ host ∈ numberedHosts 0x80000000, lists.getIpOfHost host = none := by
  have negative : toCInt (numberedHosts 0x80000000).length = -0x80000000 := by
    rw [length_numberedHosts]
    decide
  refine ⟨by rw [length_numberedHosts]; decide, nodup_numberedHosts _, {}, ?_, fun _ _ => rfl⟩
  rw [initHostList, countedHosts, negative]
  rfl

/-! ## From an address to its host and back

That the host of an address has that address does not need the properties to be distinct, or
written as `inet_ntoa` writes them: an entry of `list_ip` is found under the text of an address
only, and the address that goes with it is the one the text stands for. -/

/-- A host entered under a text has the address that the text stands for. -/
def HostLists.Inverse (lists : HostLists) : Prop :=
  ∀ text name, lists.listIp text = some name → lists.listHost name = some (inetAddr text)

namespace HostInit

variable {init : HostInit}

theorem inverse_give (inverse : init.Inverse) {name text : String} {ip : UInt32}
    (new : init.listHost name = none) (named : ip = inetAddr text) : (init.give name ip text).Inverse := by
  intro text' name' entered
  by_cases sameText : text' = text
  · subst sameText
    have sameName : name = name' := by simpa [HostInit.give] using entered
    subst sameName
    simp [HostInit.give, named]
  · have before : init.listIp text' = some name' := by simpa [HostInit.give, sameText] using entered
    have known := inverse text' name' before
    have other : name' ≠ name := by
      rintro rfl
      rw [new] at known
      cases known
    simpa [HostInit.give, other] using known

theorem inverse_givenIps {hosts : List PlatformHost} (inverse : init.Inverse)
    (names : (hosts.map (·.name)).Nodup) (new : ∀ host ∈ hosts, init.listHost host.name = none) :
    (HostInit.givenIps hosts init).1.Inverse ∧
      (HostInit.givenIps hosts init).2 = hosts.filter (·.ip.isNone) ∧
      ∀ host ∈ hosts, host.ip = none → (HostInit.givenIps hosts init).1.listHost host.name = none := by
  -- the name of a host that is kept for later is not used by the hosts that follow it
  have unused : ∀ (hosts : List PlatformHost) (init : HostInit) (name : String),
      name ∉ hosts.map (·.name) → init.listHost name = none →
        (HostInit.givenIps hosts init).1.listHost name = none := by
    intro hosts
    induction hosts with
    | nil => exact fun _ _ _ before => before
    | cons host hosts ih =>
        intro init name absent before
        simp only [List.map_cons, List.mem_cons, not_or] at absent
        cases given : host.ip with
        | none => simpa [HostInit.givenIps, given] using ih init name absent.2 before
        | some prop =>
            simp only [HostInit.givenIps, given]
            apply ih _ _ absent.2
            simpa [HostInit.give, absent.1] using before
  induction hosts generalizing init with
  | nil => exact ⟨inverse, rfl, by simp⟩
  | cons host hosts ih =>
      obtain ⟨apart, names⟩ := List.nodup_cons.mp names
      have newHost := new host (List.mem_cons_self ..)
      have newRest : ∀ other ∈ hosts, init.listHost other.name = none :=
        fun other listed => new other (List.mem_cons_of_mem _ listed)
      cases given : host.ip with
      | none =>
          obtain ⟨inverse', kept, later⟩ := ih inverse names newRest
          simp only [HostInit.givenIps, given, List.filter_cons, Option.isNone_none, if_true]
          refine ⟨inverse', by rw [kept], ?_⟩
          intro other listed without
          rcases List.mem_cons.mp listed with rfl | listed
          · exact unused hosts init _ apart newHost
          · exact later other listed without
      | some prop =>
          have different : ∀ other ∈ hosts, other.name ≠ host.name :=
            fun other listed same => apart (List.mem_map.mpr ⟨other, listed, same⟩)
          obtain ⟨inverse', kept, later⟩ := ih (inverse_give inverse newHost rfl) names
            fun other listed => by simpa [HostInit.give, different other listed] using newRest other listed
          simp only [HostInit.givenIps, given, List.filter_cons, Option.isNone_some, Bool.false_eq_true,
            if_false]
          refine ⟨inverse', kept, ?_⟩
          intro other listed without
          rcases List.mem_cons.mp listed with rfl | listed
          · rw [given] at without
            cases without
          · exact later other listed without

theorem inverse_missingIps {hosts : List PlatformHost} {tempIp : UInt32} {init' : HostInit}
    (done : HostInit.missingIps hosts tempIp init = .ok init') (inverse : init.Inverse)
    (names : (hosts.map (·.name)).Nodup) (new : ∀ host ∈ hosts, init.listHost host.name = none) :
    init'.Inverse := by
  induction hosts generalizing init tempIp with
  | nil =>
      cases done
      exact inverse
  | cons host hosts ih =>
      obtain ⟨apart, names⟩ := List.nodup_cons.mp names
      unfold HostInit.missingIps at done
      cases found : firstUnused (· + 1) init.ipList (init.ipList.length + 1) tempIp with
      | none =>
          rw [found] at done
          cases done
      | some ip =>
          rw [found] at done
          apply ih done (inverse_give inverse (new host (List.mem_cons_self ..)) (inetAddr_inetNtoa ip).symm) names
          intro other listed
          have different : other.name ≠ host.name := fun same => apart (List.mem_map.mpr ⟨other, listed, same⟩)
          simpa [HostInit.give, different] using new other (List.mem_cons_of_mem _ listed)

end HostInit

theorem inverse_initHostList {hosts : List PlatformHost} {lists : HostLists}
    (done : initHostList hosts = .ok lists) (names : (hosts.map (·.name)).Nodup) : lists.Inverse := by
  obtain ⟨init, missing, rfl⟩ := bind_pure_eq_ok.mp done
  have empty : HostLists.Inverse (HostInit.toHostLists {}) := fun _ _ entered => by cases entered
  have names : ((countedHosts hosts).map (·.name)).Nodup := names.sublist ((List.take_sublist ..).map _)
  obtain ⟨inverse, kept, unnamed⟩ := HostInit.inverse_givenIps empty names fun _ _ => rfl
  rw [kept] at missing
  apply HostInit.inverse_missingIps missing inverse
  · exact names.sublist (List.filter_sublist.map _)
  · intro host listed
    obtain ⟨listed, without⟩ := List.mem_filter.mp listed
    exact unnamed host listed (by simpa using without)

theorem HostLists.mem_of_getHostByIp {lists : HostLists} {hosts : List PlatformHost} {ip : UInt32}
    {host : PlatformHost} (found : lists.getHostByIp hosts ip = some host) : host ∈ hosts := by
  unfold HostLists.getHostByIp at found
  split at found
  · cases found
  · exact List.mem_of_find?_eq_some found

/-- The host found for an address has that address. -/
theorem getIpOfHost_of_getHostByIp {hosts : List PlatformHost} {lists : HostLists}
    (inverse : lists.Inverse) {ip : UInt32} {host : PlatformHost}
    (found : lists.getHostByIp hosts ip = some host) : lists.getIpOfHost host = some ip := by
  unfold HostLists.getHostByIp at found
  cases known : lists.listIp (inetNtoa ip) with
  | none =>
      rw [known] at found
      cases found
  | some name =>
      rw [known] at found
      have named : host.name = name := by simpa using List.find?_some found
      rw [HostLists.getIpOfHost, named, inverse _ _ known, inetAddr_inetNtoa]

end Simterpose
