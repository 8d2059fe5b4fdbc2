import Molten.Collector.LoadBalance

namespace Molten.Collector

open Molten.Data Molten.Log Molten.Text

/-! The choice of the collector address. -/

/-- `emalloc(sizeof(char) * 64)`, in pointers. -/
def serversSize : Nat := 64 / 8

variable {n : Nat}

def Server.text (server : Server) : Bytes := server.name.takeWhile (· != 0)

/-- The `response` is the strings of the JSON array, from each `valuestring`
on, or `none` when the request failed.  The exit `none` is behaviour that is
not defined: `servers` is too small, or `getNextServerIndex` has none. -/
def skGetServer (response : Option (Fin n → Memory)) :
    Option (Option Bytes) :=
  match response with
  | none => some none
  | some valuestrings =>
      if n = 0 then some none
      else if serversSize < n then none
      else do
        let choice ← getNextServerIndex (initDefaultServers valuestrings)
        let i ← entry n choice.index
        return some (choice.servers i).text

def stringAt (text : Bytes) (behind : Memory) : Memory :=
  behind.store 0 (text ++ [0])

def CallsReturn (names : Fin n → Bytes) (behind : Fin n → Fin n → Memory)
    (servers : Fin n → Bytes) : Prop :=
  ∀ call, skGetServer (some fun i => stringAt (names i) (behind call i)) =
    some (some (servers call))

def SpreadsLoad (names : Fin n → Bytes) (behind : Fin n → Fin n → Memory) :
    Prop :=
  ∃ servers, CallsReturn names behind servers ∧ Function.Injective servers

theorem leader_const (value : Int) (i : Nat) (h : i < n) :
    leader (fun _ => value) i h = ⟨0, Nat.zero_lt_of_lt h⟩ := by
  induction i with
  | zero => rfl
  | succ i ih => rw [leader, if_neg (lt_irrefl value), ih]

theorem getNextServerIndex_initDefaultServers (names : Fin n → Memory)
    (hn : 0 < n) (hsize : n ≤ serversSize) :
    ∃ choice, getNextServerIndex (initDefaultServers names) = some choice ∧
      choice.index = 0 := by
  have hweight : ∀ _ : Fin n, 0 < defaultWeight := fun _ => by decide
  have hfit : n * ∑ _ : Fin n, defaultWeight < 2 ^ 31 := by
    have hn' : (n : Int) ≤ 8 := by exact_mod_cast hsize
    rw [Finset.sum_const, Finset.card_univ, Fintype.card_fin, nsmul_eq_mul,
      defaultWeight]
    nlinarith
  obtain ⟨calls, hcalls, hindices, -⟩ := callTimes_eq hn hweight hfit names 1
  have hinit : initServers names (fun _ => defaultWeight) =
      initDefaultServers names := rfl
  obtain ⟨choice, hchoice, rfl⟩ : ∃ choice,
      getNextServerIndex (initDefaultServers names) = some choice ∧
        ⟨choice.servers, [choice]⟩ = calls := by
    simpa [callTimes, Option.bind_eq_some_iff, hinit] using hcalls
  refine ⟨choice, hchoice, (List.cons.inj hindices).1.trans ?_⟩
  exact congrArg serverIndex (leader_const (0 + defaultWeight) _ _)

theorem skGetServer_eq {valuestrings : Fin n → Memory} {server : Option Bytes}
    (h : skGetServer (some valuestrings) = some server) (hn : 0 < n) :
    server = some ((memcpy serverNameLen
      (valuestrings ⟨0, hn⟩)).takeWhile (· != 0)) := by
  obtain hlt | hsize := Nat.lt_or_ge serversSize n
  · simp [skGetServer, hn.ne', hlt] at h
  obtain ⟨choice, hchoice, hindex⟩ :=
    getNextServerIndex_initDefaultServers valuestrings hn hsize
  have hentry : entry n 0 = some ⟨0, hn⟩ := entry_coe ⟨0, hn⟩
  simp only [skGetServer, hn.ne', Nat.not_lt.mpr hsize, if_false, hchoice,
    hindex, hentry, Option.bind_eq_bind, Option.bind_some, Option.pure_def,
    Option.some.injEq] at h
  rw [← h, Server.text, getNextServerIndex_name hchoice]
  rfl

theorem takeWhile_memcpy_stringAt {text : Bytes} (hnul : (0 : UInt8) ∉ text)
    (hlen : text.length < serverNameLen) (behind : Memory) :
    (memcpy serverNameLen (stringAt text behind)).takeWhile (· != 0) =
      text := by
  obtain ⟨rest, hrest⟩ := Nat.exists_eq_add_of_le hlen
  have hbytes := Memory.map_range_store 0 (text ++ [0]) behind
  rw [Nat.zero_add, List.length_append, List.length_singleton,
    List.range_zero, List.map_nil, List.nil_append] at hbytes
  rw [memcpy, hrest, List.range_add, List.map_append, stringAt, hbytes,
    List.append_assoc, List.singleton_append]
  exact Block.takeWhile_append_stop hnul _

theorem CallsReturn.eq_first {names servers : Fin n → Bytes}
    {behind : Fin n → Fin n → Memory}
    (hcalls : CallsReturn names behind servers) (hn : 0 < n)
    (hnul : (0 : UInt8) ∉ names ⟨0, hn⟩)
    (hlen : (names ⟨0, hn⟩).length < serverNameLen) (call : Fin n) :
    servers call = names ⟨0, hn⟩ := by
  have hserver := skGetServer_eq (hcalls call) hn
  rw [takeWhile_memcpy_stringAt hnul hlen] at hserver
  exact Option.some.inj hserver

theorem not_spreadsLoad (hn : 2 ≤ n) (names : Fin n → Bytes)
    (hnul : ∀ i, (0 : UInt8) ∉ names i)
    (hlen : ∀ i, (names i).length < serverNameLen)
    (behind : Fin n → Fin n → Memory) : ¬ SpreadsLoad names behind := by
  rintro ⟨servers, hcalls, hinjective⟩
  have hfirst := hcalls.eq_first (by omega) (hnul _) (hlen _)
  have heq := hinjective ((hfirst ⟨0, by omega⟩).trans
    (hfirst ⟨1, by omega⟩).symm)
  exact absurd (Fin.mk.inj heq) (by decide)

theorem not_spreadsLoad_three :
    ¬ SpreadsLoad (fun i : Fin 3 => [97, 97 + i.val.toUInt8])
      (fun _ _ _ => 0) :=
  not_spreadsLoad (by decide) (fun i : Fin 3 => [97, 97 + i.val.toUInt8])
    (by decide) (by decide) (fun _ _ _ => 0)

theorem pair_not_spreadsLoad :
    Function.Injective (fun i : Fin 2 => [97 + i.val.toUInt8]) ∧
      ¬ SpreadsLoad (fun i : Fin 2 => [97 + i.val.toUInt8])
        (fun _ _ _ => 0) := by
  refine ⟨by decide, fun ⟨servers, hcalls, hinjective⟩ => ?_⟩
  have hfirst := hcalls.eq_first (by decide) (by decide) (by decide)
  exact absurd (hinjective ((hfirst 0).trans (hfirst 1).symm)) (by decide)

end Molten.Collector
