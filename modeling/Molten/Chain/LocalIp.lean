import Molten.Text.Inet

namespace Molten.Chain.LocalIp

open Molten.Text
open Molten.Text.Inet

/-! The address that stands for the host in every span. -/

/-- `struct sockaddr`, with the address that is read from it as from a
`struct sockaddr_in`. -/
structure Sockaddr where
  saFamily : UInt16
  sinAddr : InAddr
  deriving DecidableEq, Repr

/-- `struct ifaddrs`; an interface may be without an address. -/
structure Ifaddrs where
  ifaFlags : UInt32
  ifaAddr : Option Sockaddr
  deriving DecidableEq, Repr

def iffUp : UInt32 := 1

def afInet : UInt16 := 2

def inetAddrstrlen : Nat := 16

def toLower (byte : UInt8) : UInt8 :=
  if 65 ≤ byte ∧ byte ≤ 90 then byte + 32 else byte

/-- `strncasecmp(first, second, count) == 0` -/
def strncasecmpEq (first second : Block) (count : Nat) : Option Bool := do
  let first ← Block.readUpTo first count
  let second ← Block.readUpTo second count
  return first.map toLower == second.map toLower

/-- `inet_ntop(AF_INET, addr, buf, sizeof(buf))`, which returns `NULL` when the
text does not fit. -/
def inetNtop (addr : InAddr) (buf : Block) : Option Block :=
  Block.store 0 (ntop addr ++ [0]) buf

def localhost : Block := Block.ofString "127.0.0.1"

/-- The loop of `mo_obtain_local_ip`, with what is in `buf`. -/
def scanInterfaces (ip : Block) : Block → List Ifaddrs → Option Block
  | _, [] => some ip
  | buf, ifa :: rest =>
      match ifa.ifaAddr with
      | none => scanInterfaces ip buf rest
      | some addr =>
          if ifa.ifaFlags &&& iffUp = 0 then scanInterfaces ip buf rest
          else if afInet = addr.saFamily then
            match inetNtop addr.sinAddr buf with
            | none => scanInterfaces ip buf rest
            | some buf => do
                let ten ← strncasecmpEq buf (Block.ofString "10" ++ [0]) 2
                let oneNineTwo ←
                  strncasecmpEq buf (Block.ofString "192" ++ [0]) 3
                if ten || oneNineTwo then
                  Block.strncpy ip buf inetAddrstrlen
                else scanInterfaces ip buf rest
          else scanInterfaces ip buf rest

/-- `getifaddrs` is the list of the interfaces, or `none` when it fails. -/
def moObtainLocalIp (getifaddrs : Option (List Ifaddrs)) (buf ip : Block) :
    Option Block := do
  let ip ← Block.store 0 (List.replicate inetAddrstrlen 0) ip
  let ip ← Block.strncpy ip (localhost ++ [0]) inetAddrstrlen
  match getifaddrs with
  | none => return ip
  | some interfaces => scanInterfaces ip buf interfaces

/-! The addresses of a private network. -/

def Ifaddrs.upAddress (ifa : Ifaddrs) : Option InAddr :=
  match ifa.ifaAddr with
  | some addr =>
      if ifa.ifaFlags &&& iffUp ≠ 0 ∧ addr.saFamily = afInet then
        some addr.sinAddr
      else none
  | none => none

/-- `10.0.0.0/8` or `192.168.0.0/16` -/
def IsPrivate (addr : InAddr) : Prop :=
  addr.Within ⟨10, 0, 0, 0⟩ 8 ∨ addr.Within ⟨192, 168, 0, 0⟩ 16

instance (addr : InAddr) : Decidable (IsPrivate addr) :=
  inferInstanceAs (Decidable (_ ∨ _))

/-- The text begins with `10` or with `192`. -/
def Shortlisted (addr : InAddr) : Prop :=
  addr.first = 10 ∨ (100 ≤ addr.first ∧ addr.first ≤ 109) ∨ addr.first = 192

instance (addr : InAddr) : Decidable (Shortlisted addr) :=
  inferInstanceAs (Decidable (_ ∨ _))

def Chooses (interfaces : List Ifaddrs) (text : Block) : Prop :=
  (text = localhost ∨
    ∃ addr ∈ interfaces.filterMap Ifaddrs.upAddress,
      IsPrivate addr ∧ text = ntop addr) ∧
  (text = localhost →
    ∀ addr ∈ interfaces.filterMap Ifaddrs.upAddress, ¬ IsPrivate addr)

/-- A host, and the two buffers as they are before. -/
structure Host where
  interfaces : List Ifaddrs
  buf : Block
  ip : Block
  buf_length : buf.length = inetAddrstrlen
  ip_length : ip.length = inetAddrstrlen

def Host.ChoosesPrivate (host : Host) : Prop :=
  ∃ ip text, moObtainLocalIp (some host.interfaces) host.buf host.ip = some ip ∧
    Block.cString ip = some text ∧ Chooses host.interfaces text

def Host.first (host : Host) : Option InAddr :=
  (host.interfaces.filterMap Ifaddrs.upAddress).find? fun addr =>
    decide (Shortlisted addr)

/-! The texts of addresses on the shortlist. -/

theorem shortlisted_of_isPrivate {addr : InAddr} (inside : IsPrivate addr) :
    Shortlisted addr := by
  rcases inside with ten | oneNineTwo
  · exact .inl (InAddr.within_eight.mp ten)
  · exact .inr (.inr (InAddr.within_sixteen.mp oneNineTwo).1)

theorem ten_prefix_decimal : ∀ value < 256,
    Block.ofString "10" <+: Format.decimal value ↔
      value = 10 ∨ (100 ≤ value ∧ value ≤ 109) := by
  decide +kernel

theorem oneNineTwo_prefix_decimal : ∀ value < 256,
    Block.ofString "192" <+: Format.decimal value ↔ value = 192 := by
  decide +kernel

theorem shortlisted_iff (addr : InAddr) :
    Shortlisted addr ↔
      Block.ofString "10" <+: ntop addr ∨
        Block.ofString "192" <+: ntop addr := by
  rw [ntop, prefix_append_stop_iff (by decide),
    prefix_append_stop_iff (by decide), octet,
    ten_prefix_decimal _ addr.first.toNat_lt,
    oneNineTwo_prefix_decimal _ addr.first.toNat_lt, Shortlisted,
    ← UInt8.toNat_inj, ← UInt8.toNat_inj, UInt8.le_iff_toNat_le,
    UInt8.le_iff_toNat_le, or_assoc]
  rfl

theorem toLower_of_isDigit {byte : UInt8} (digit : Block.isDigit byte = true) :
    toLower byte = byte := by
  apply if_neg
  intro letter
  have bound : byte ≤ 57 := by
    rw [Block.isDigit, Bool.and_eq_true] at digit
    exact of_decide_eq_true digit.2
  exact absurd (UInt8.le_trans letter.1 bound) (by decide)

theorem map_toLower_ntop (addr : InAddr) :
    (ntop addr).map toLower = ntop addr := by
  nth_rewrite 2 [← List.map_id (ntop addr)]
  apply List.map_congr_left
  intro byte member
  rcases mem_ntop member with digit | rfl
  · exact toLower_of_isDigit digit
  · decide

/-- The three dots alone are as long as what is compared. -/
theorem three_le_length_ntop (addr : InAddr) : 3 ≤ (ntop addr).length := by
  simp only [ntop, List.length_append, List.length_cons]
  omega

theorem strncasecmpEq_ntop (addr : InAddr) (rest start : Block)
    (noNul : (0 : UInt8) ∉ start) (lower : start.map toLower = start)
    (short : start.length ≤ 3) :
    strncasecmpEq (ntop addr ++ rest) (start ++ [0]) start.length =
      some (decide (start <+: ntop addr)) := by
  have within := short.trans (three_le_length_ntop addr)
  rw [strncasecmpEq, Block.readUpTo_append (zero_notMem_ntop addr) within,
    Block.readUpTo_literal noNul le_rfl]
  simp only [Option.bind_eq_bind, Option.bind_some, Option.pure_def,
    List.map_take, map_toLower_ntop, lower]
  rw [Option.some.injEq, Bool.eq_iff_iff, beq_iff_eq, decide_eq_true_eq,
    List.prefix_iff_eq_take, eq_comm]

theorem inetNtop_eq {buf : Block} (buf_length : buf.length = inetAddrstrlen)
    (addr : InAddr) :
    ∃ rest, inetNtop addr buf = some (ntop addr ++ 0 :: rest) ∧
      (ntop addr ++ 0 :: rest).length = inetAddrstrlen := by
  have fits : 0 + (ntop addr ++ [0]).length ≤ buf.length := by
    have short := length_ntop_lt addr
    rw [buf_length, List.length_append, Nat.zero_add]
    exact short
  have stored := Block.store_eq_some fits
  rw [List.take_zero, List.nil_append, List.append_assoc,
    List.singleton_append] at stored
  exact ⟨_, stored, (Block.length_store stored).trans buf_length⟩

theorem scanInterfaces_skip {ifa : Ifaddrs} (skipped : ifa.upAddress = none)
    (ip buf : Block) (rest : List Ifaddrs) :
    scanInterfaces ip buf (ifa :: rest) = scanInterfaces ip buf rest := by
  rw [Ifaddrs.upAddress] at skipped
  rw [scanInterfaces]
  cases present : ifa.ifaAddr with
  | none => rfl
  | some addr =>
      rw [present] at skipped
      dsimp only at skipped ⊢
      split
      · rfl
      · rename_i up
        split
        · rename_i family
          rw [if_pos ⟨up, family.symm⟩] at skipped
          cases skipped
        · rfl

theorem scanInterfaces_print {ifa : Ifaddrs} {addr : InAddr}
    (found : ifa.upAddress = some addr) (ip : Block) {buf behind : Block}
    (printed : inetNtop addr buf = some (ntop addr ++ 0 :: behind))
    (rest : List Ifaddrs) :
    scanInterfaces ip buf (ifa :: rest) =
      if Shortlisted addr then
        Block.strncpy ip (ntop addr ++ 0 :: behind) inetAddrstrlen
      else scanInterfaces ip (ntop addr ++ 0 :: behind) rest := by
  rw [Ifaddrs.upAddress] at found
  rw [scanInterfaces]
  cases present : ifa.ifaAddr with
  | none =>
      rw [present] at found
      cases found
  | some sockaddr =>
      rw [present] at found
      dsimp only at found ⊢
      split at found
      · rename_i read
        cases found
        have ten := strncasecmpEq_ntop sockaddr.sinAddr (0 :: behind)
          (Block.ofString "10") (by decide) (by decide) (by decide)
        have oneNineTwo := strncasecmpEq_ntop sockaddr.sinAddr (0 :: behind)
          (Block.ofString "192") (by decide) (by decide) (by decide)
        rw [if_neg read.1, if_pos read.2.symm, printed]
        dsimp only
        rw [show (2 : Nat) = (Block.ofString "10").length by decide, ten,
          show (3 : Nat) = (Block.ofString "192").length by decide, oneNineTwo]
        simp only [Option.bind_eq_bind, Option.bind_some, shortlisted_iff,
          Bool.or_eq_true, decide_eq_true_eq]
      · cases found

/-- The loop ends with the first address on the shortlist. -/
theorem scanInterfaces_eq {ip buf : Block}
    (ip_length : ip.length = inetAddrstrlen)
    (ip_text : Block.cString ip = some localhost)
    (buf_length : buf.length = inetAddrstrlen) (interfaces : List Ifaddrs) :
    ∃ after, scanInterfaces ip buf interfaces = some after ∧
      Block.cString after = some
        (((interfaces.filterMap Ifaddrs.upAddress).find? fun addr =>
          decide (Shortlisted addr)).elim localhost ntop) := by
  induction interfaces generalizing buf with
  | nil => exact ⟨ip, rfl, ip_text⟩
  | cons ifa rest induction =>
      cases found : ifa.upAddress with
      | none =>
          rw [scanInterfaces_skip found, List.filterMap_cons_none found]
          exact induction buf_length
      | some addr =>
          obtain ⟨behind, printed, printed_length⟩ :=
            inetNtop_eq buf_length addr
          rw [scanInterfaces_print found ip printed,
            List.filterMap_cons_some found]
          split
          · rename_i listed
            have taken := Block.readUpTo_nul (zero_notMem_ntop addr)
              (length_ntop_lt addr) behind
            obtain ⟨after, copied, text, -⟩ :=
              Block.strncpy_eq_some taken (zero_notMem_ntop addr)
                (length_ntop_lt addr) ip_length.ge
            refine ⟨after, copied, ?_⟩
            rw [List.find?_cons, decide_eq_true listed]
            exact text
          · rename_i unlisted
            rw [List.find?_cons, decide_eq_false unlisted]
            exact induction printed_length

theorem moObtainLocalIp_eq (host : Host) :
    ∃ ip, moObtainLocalIp (some host.interfaces) host.buf host.ip = some ip ∧
      Block.cString ip = some (host.first.elim localhost ntop) := by
  have cleared : 0 + (List.replicate inetAddrstrlen (0 : UInt8)).length ≤
      host.ip.length := by
    rw [List.length_replicate, host.ip_length, Nat.zero_add]
  have stored := Block.store_eq_some cleared
  have length := (Block.length_store stored).trans host.ip_length
  have taken : Block.readUpTo (localhost ++ [0]) inetAddrstrlen =
      some localhost := Block.readUpTo_literal (by decide) (by decide)
  obtain ⟨ip, copied, text, copied_length⟩ :=
    Block.strncpy_eq_some taken (by decide) (by decide) length.ge
  obtain ⟨after, scanned, chosen⟩ := scanInterfaces_eq
    (copied_length.trans length) text host.buf_length host.interfaces
  refine ⟨after, ?_, chosen⟩
  rw [moObtainLocalIp, stored, Option.bind_eq_bind, Option.bind_some, copied]
  exact scanned

theorem localhost_ne_ntop {addr : InAddr} (listed : Shortlisted addr) :
    localhost ≠ ntop addr := by
  intro same
  have loopback : localhost = ntop ⟨127, 0, 0, 1⟩ := by decide
  rw [loopback] at same
  rw [← ntop_injective same] at listed
  exact absurd listed (by decide)

/-- The address is that of a private network, and the local host stands only
where there is none, just when the first address on the shortlist is one. -/
theorem choosesPrivate_iff (host : Host) :
    host.ChoosesPrivate ↔ ∀ addr, host.first = some addr → IsPrivate addr := by
  obtain ⟨ip, obtained, text⟩ := moObtainLocalIp_eq host
  have chooses_iff : host.ChoosesPrivate ↔
      Chooses host.interfaces (host.first.elim localhost ntop) := by
    constructor
    · intro chooses
      obtain ⟨ip', text', obtained', read, chooses⟩ := chooses
      cases obtained.symm.trans obtained'
      cases text.symm.trans read
      exact chooses
    · intro chooses
      exact ⟨ip, _, obtained, text, chooses⟩
  rw [chooses_iff]
  cases first : host.first with
  | none =>
      have unlisted := List.find?_eq_none.mp first
      refine iff_of_true ⟨.inl rfl, ?_⟩ nofun
      intro _ addr member inside
      exact unlisted addr member
        (decide_eq_true (shortlisted_of_isPrivate inside))
  | some addr =>
      have listed : Shortlisted addr := by
        simpa using List.find?_some first
      constructor
      · intro chooses other same
        cases same
        rcases chooses.1 with isLocalhost | ⟨other, member, inside, same⟩
        · exact absurd isLocalhost.symm (localhost_ne_ntop listed)
        · rw [ntop_injective same]
          exact inside
      · intro inside
        have inside := inside addr rfl
        refine ⟨.inr ⟨addr, List.mem_of_find?_eq_some first, inside, rfl⟩, ?_⟩
        intro isLocalhost
        exact absurd isLocalhost.symm (localhost_ne_ntop listed)

def sharedAddressHost : Host where
  interfaces := [⟨1, some ⟨2, ⟨100, 64, 0, 1⟩⟩⟩]
  buf := List.replicate inetAddrstrlen 0
  ip := List.replicate inetAddrstrlen 0
  buf_length := by decide
  ip_length := by decide

theorem not_choosesPrivate_sharedAddress :
    ¬ sharedAddressHost.ChoosesPrivate := by
  intro chooses
  obtain ⟨ip, text, obtained, read, chooses⟩ := chooses
  have left : moObtainLocalIp (some sharedAddressHost.interfaces)
      sharedAddressHost.buf sharedAddressHost.ip =
      some (Block.ofString "100.64.0.1" ++ [0, 0, 0, 0, 0, 0]) := by decide
  cases left.symm.trans obtained
  have spelled : Block.cString
      (Block.ofString "100.64.0.1" ++ [0, 0, 0, 0, 0, 0]) =
      some (Block.ofString "100.64.0.1") := by decide
  cases spelled.symm.trans read
  rcases chooses.1 with isLocalhost | ⟨addr, member, inside, -⟩
  · exact absurd isLocalhost (by decide)
  · have only : addr = ⟨100, 64, 0, 1⟩ := List.mem_singleton.mp member
    rw [only] at inside
    exact absurd inside (by decide)

end Molten.Chain.LocalIp
