import Mcc.AddressLedger

/-!
The three places that choose the core for a connection: `CreateAddressPoolPerCore` hashes the
addresses as a reply carries them, `FetchAddress` as a request does, and `mtcp_connect`, for an
address the application has bound, in network order.
-/

namespace Mcc

open TailQueue

def boundRSSCore (saddr daddr : SockAddr) (numQueues : Int32) (endianCheck : Bool) :
    Except Fault Int32 :=
  getRSSCPUCore saddr.sAddr daddr.sAddr saddr.sinPort daddr.sinPort numQueues endianCheck

section Places

variable (numQueues : Int32) (endianCheck : Bool)

def PoolAgrees : Prop :=
  ∀ granted wanted ap, wanted.numQueues = numQueues → wanted.endianCheck = endianCheck →
    createAddressPoolPerCore granted wanted = .ok (some ap) → ∀ addr ∈ ap.pool,
      replyQueue addr ⟨wanted.daddr, wanted.dport⟩ numQueues endianCheck = wanted.core.toInt

def FetchAgrees : Prop :=
  ∀ ap core daddr saddr result addr,
    fetchAddress ap core numQueues endianCheck (some daddr) saddr = some (.ok result) →
    result.ret = 0 → result.saddr = some addr → replyQueue addr daddr numQueues endianCheck = core.toInt

def BoundAgrees : Prop :=
  ∀ core saddr daddr, saddr.sinPort ≠ inportAny → saddr.sAddr ≠ inaddrAny →
    boundRSSCore saddr daddr numQueues endianCheck = .ok core →
      replyQueue saddr daddr numQueues endianCheck = core.toInt

end Places

variable {numQueues : Int32} {endianCheck : Bool}

theorem poolAgrees : PoolAgrees numQueues endianCheck := by
  rintro granted wanted ap rfl rfl done addr member
  obtain ⟨memory, sound, rfl⟩ := createAddressPoolPerCore_fresh done
  exact sound.chosen addr member

theorem queue_one {sip dip sp dp core addr server} (few : numQueues = 0 ∨ numQueues = 1)
    (chosen : getRSSCPUCore sip dip sp dp numQueues endianCheck = .ok core) :
    replyQueue addr server numQueues endianCheck = core.toInt := by
  obtain ⟨nonzero, isCore⟩ := getRSSCPUCore_eq_ok.mp chosen
  rcases few with zero | rfl
  · exact absurd zero nonzero
  · rw [isCore, replyQueue, receivingQueue, receivingQueue]
    change ((_ % 1 : Nat) : Int) = ((_ % 1 : Nat) : Int)
    rw [Nat.mod_one, Nat.mod_one]

theorem queues_differ (many : ¬(numQueues = 0 ∨ numQueues = 1)) :
    1 % numQueues.toUInt32.toNat ≠ 2 % numQueues.toUInt32.toNat := by
  have notZero : numQueues.toUInt32.toNat ≠ 0 := by
    intro zero
    have same : numQueues.toUInt32 = 0 := UInt32.toNat_inj.mp zero
    exact many (.inl (congrArg UInt32.toInt32 same))
  have notOne : numQueues.toUInt32.toNat ≠ 1 := by
    intro one
    have same : numQueues.toUInt32 = 1 := UInt32.toNat_inj.mp one
    exact many (.inr (congrArg UInt32.toInt32 same))
  rcases Nat.lt_or_ge 2 numQueues.toUInt32.toNat with large | small
  · rw [Nat.mod_eq_of_lt (by omega), Nat.mod_eq_of_lt large]
    decide
  · have two : numQueues.toUInt32.toNat = 2 := by omega
    rw [two]
    decide

def client : SockAddr := ⟨htonl 0x0A000001, htons 11903⟩

def server : SockAddr := ⟨htonl 0x0A000004, htons 80⟩

theorem rows_differ (endianCheck : Bool) :
    redirection endianCheck (toeplitzHash (ntohl client.sAddr) (ntohl server.sAddr)
        (ntohs client.sinPort) (ntohs server.sinPort)) = (if endianCheck then 2 else 1) ∧
      redirection endianCheck (toeplitzHash client.sAddr server.sAddr client.sinPort
        server.sinPort) = (if endianCheck then 2 else 1) ∧
      redirection endianCheck (toeplitzHash (ntohl server.sAddr) (ntohl client.sAddr)
        (ntohs server.sinPort) (ntohs client.sinPort)) = (if endianCheck then 1 else 2) := by
  cases endianCheck <;> decide +kernel

theorem suits_core {ap : AddrPool} {core : Int32} {daddr saddr : SockAddr} {walk : Nat}
    (suits : ap.suits core numQueues endianCheck daddr saddr walk = .ok true) :
    getRSSCPUCore (ntohl (ap.addr walk).sAddr) (ntohl daddr.sAddr) (ntohs (ap.addr walk).sinPort)
      (ntohs daddr.sinPort) numQueues endianCheck = .ok core := by
  rw [AddrPool.suits] at suits
  split at suits
  · cases suits
  · split at suits
    · cases suits
    · obtain ⟨rssCore, isCore, same⟩ := bind_ok suits
      rw [isCore, of_decide_eq_true (Except.ok.inj same)]

theorem fetchAgrees_of_few (few : numQueues = 0 ∨ numQueues = 1) : FetchAgrees numQueues endianCheck := by
  intro ap core daddr saddr result addr done success isAddr
  cases saddr with
  | none =>
    cases done
    cases success
  | some wish =>
    simp only [fetchAddress] at done
    split at done
    · cases done
    · cases done
    · cases done
      cases success
    · case _ walk found =>
        exact queue_one few (suits_core (find_wanted found))

theorem fetchAddress_exact {ap core addr daddr entry free used} (ledger : Ledger ap free used)
    (member : entry ∈ free)
    (suits : ap.suits core numQueues endianCheck daddr addr entry = .ok true)
    (someAddr : addr.sAddr ≠ inaddrAny) (somePort : addr.sinPort ≠ inportAny) (nonzero : numQueues ≠ 0) :
    ∃ result, fetchAddress ap core numQueues endianCheck (some daddr) (some addr) =
      some (.ok result) ∧ result.ret = 0 ∧ result.saddr = some addr := by
  rcases fetchAddress_cases ledger core numQueues endianCheck (some daddr) (some addr) with
    ⟨zero, -⟩ | ⟨refuses, -⟩ | ⟨before, walk, after, server, wish, isFree, -, isWish, suits, done⟩
  · exact absurd zero nonzero
  · cases (refuses daddr addr rfl rfl entry member).symm.trans suits
  · cases isWish
    refine ⟨_, done, rfl, congrArg some ?_⟩
    simp only [AddrPool.suits, someAddr, somePort, ne_eq, not_false_eq_true, true_and] at suits
    split at suits
    case isTrue => cases suits
    case isFalse sameAddr =>
      split at suits
      case isTrue => cases suits
      case isFalse samePort =>
        exact congrArg₂ SockAddr.mk (Decidable.of_not_not sameAddr) (Decidable.of_not_not samePort)

theorem client_fetched {core}
    (chosen : getRSSCPUCore (ntohl client.sAddr) (ntohl server.sAddr) (ntohs client.sinPort)
      (ntohs server.sinPort) numQueues endianCheck = .ok core) :
    ∃ ap : AddrPool, ap.Created ∧ ∃ result,
      fetchAddress ap core numQueues endianCheck (some server) (some client) = some (.ok result) ∧
        result.ret = 0 ∧ result.saddr = some client := by
  obtain ⟨ap, created, pool⟩ := createAddressPool_one client.sAddr
  refine ⟨ap, .inl ⟨true, client.sAddr, 1, created⟩, ?_⟩
  obtain ⟨memory, sound, rfl⟩ := createAddressPool_fresh created
  have held : memory.pool[11903 - minPort]? = some client := by
    change memory.pool = _ at pool
    rw [pool]
    decide +kernel
  have inside : 11903 - minPort < memory.pool.length := (List.getElem?_eq_some_iff.mp held).1
  have isClient : (memory.finish (ntohl client.sAddr) 1).addr (11903 - minPort) = client :=
    Option.some.inj ((AddrPool.getElem?_addr inside).symm.trans held)
  refine fetchAddress_exact sound.ledger (List.mem_range.mpr inside) ?_ (by decide) (by decide)
    (getRSSCPUCore_eq_ok.mp chosen).1
  simp [AddrPool.suits, isClient, chosen, bind, Except.bind]

theorem client_core (endianCheck : Bool) (nonzero : numQueues ≠ 0) :
    ∃ core, getRSSCPUCore (ntohl client.sAddr) (ntohl server.sAddr) (ntohs client.sinPort)
        (ntohs server.sinPort) numQueues endianCheck = .ok core ∧
      boundRSSCore client server numQueues endianCheck = .ok core ∧
      (replyQueue client server numQueues endianCheck = core.toInt →
        1 % numQueues.toUInt32.toNat = 2 % numQueues.toUInt32.toNat) := by
  obtain ⟨request, bound, reply⟩ := rows_differ endianCheck
  obtain ⟨core, isCore⟩ : ∃ core, getRSSCPUCore (ntohl client.sAddr) (ntohl server.sAddr)
      (ntohs client.sinPort) (ntohs server.sinPort) numQueues endianCheck = .ok core := by
    rw [getRSSCPUCore, if_neg nonzero]
    exact ⟨_, rfl⟩
  have queue := (getRSSCPUCore_eq_ok.mp isCore).2
  refine ⟨core, isCore, getRSSCPUCore_eq_ok.mpr ⟨nonzero, ?_⟩, fun same => ?_⟩
  · rw [queue, receivingQueue, receivingQueue, request, bound]
  · rw [queue, replyQueue, receivingQueue, receivingQueue, request, reply] at same
    cases endianCheck <;> simp only [Bool.false_eq_true, if_false, if_true] at same <;> omega

/-- The pools always agree with the replies; the other two places do so for every address just when
there are no two queues to choose from. -/
theorem rss_agreement (numQueues : Int32) (endianCheck : Bool) :
    PoolAgrees numQueues endianCheck ∧
      (FetchAgrees numQueues endianCheck ↔ numQueues = 0 ∨ numQueues = 1) ∧
      (BoundAgrees numQueues endianCheck ↔ numQueues = 0 ∨ numQueues = 1) := by
  refine ⟨poolAgrees, ⟨fun agrees => ?_, fetchAgrees_of_few⟩, fun agrees => ?_,
    fun few core saddr daddr _ _ chosen => queue_one few chosen⟩
  · by_contra many
    obtain ⟨core, request, -, same⟩ := client_core endianCheck fun zero => many (.inl zero)
    obtain ⟨ap, -, result, done, success, isClient⟩ := client_fetched request
    exact queues_differ many (same (agrees ap core server client result client done success isClient))
  · by_contra many
    obtain ⟨core, -, bound, same⟩ := client_core endianCheck fun zero => many (.inl zero)
    exact queues_differ many (same (agrees core client server (by decide) (by decide) bound))

theorem request_core_is_not_reply_core :
    (∃ ap : AddrPool, ap.Created ∧ ∃ result,
      fetchAddress ap 1 2 false (some server) (some client) = some (.ok result) ∧
        result.ret = 0 ∧ result.saddr = some client) ∧
      boundRSSCore client server 2 false = .ok 1 ∧ replyQueue client server 2 false = 0 :=
  ⟨client_fetched (by decide +kernel), by decide +kernel, by decide +kernel⟩

end Mcc
