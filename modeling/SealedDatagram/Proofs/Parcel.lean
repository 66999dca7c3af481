import Mathlib.Data.List.Nodup
import SealedDatagram.Proofs.Packet.Encode
/-!
Data packets on their way from one side of a session to the other. Each is sealed under a salt that
the receiver has issued, and brings a salt of the sender's that the receiver has not seen yet. Both
directions are alike in what sending a packet, losing it and taking it in keep of that.
-/

namespace SealedDatagram

structure Parcel where
  bytes : Bytes
  data : Data
  /-- The salt that the packet is sealed under. -/
  under : Salt

/-- A parcel is the written form of what it says. -/
def Parcel.Written [CipherSuite] (c : Parcel) (key : SessionKey) : Prop :=
  c.data.payload.length ≤ Data.maxPayload ∧
    ∃ pad, pad.length = Sealed.padSize ∧ c.bytes = c.data.wire key c.under pad

/-- Packets on their way, with the salts that the receiver has issued, those that the sender has
issued, and those that the receiver has seen. -/
structure Stream [CipherSuite] (key : SessionKey) (headers own seen : List Salt)
    (parcels : List Parcel) : Prop where
  written : ∀ c ∈ parcels, c.Written key
  under : ∀ c ∈ parcels, c.under ∈ headers
  own : ∀ c ∈ parcels, c.data.salt ∈ own
  unseen : ∀ c ∈ parcels, c.data.salt ∉ seen
  distinct : (parcels.map (·.data.salt)).Nodup

namespace Stream

variable [CipherSuite] {key : SessionKey} {headers headers' own own' seen seen' : List Salt}
  {parcels : List Parcel} {c : Parcel}

theorem nil : Stream key headers own seen [] where
  written _ hc := nomatch hc
  under _ hc := nomatch hc
  own _ hc := nomatch hc
  unseen _ hc := nomatch hc
  distinct := List.nodup_nil

theorem mono (h : Stream key headers own seen parcels) (hheaders : headers ⊆ headers')
    (hown : own ⊆ own') (hseen : seen' ⊆ seen) : Stream key headers' own' seen' parcels where
  written := h.written
  under c hc := hheaders (h.under c hc)
  own c hc := hown (h.own c hc)
  unseen c hc hs := h.unseen c hc (hseen hs)
  distinct := h.distinct

theorem send (h : Stream key headers own seen parcels) (hw : c.Written key)
    (hu : c.under ∈ headers) (hn : (own ++ [c.data.salt]).Nodup) (hseen : seen ⊆ own) :
    Stream key headers (own ++ [c.data.salt]) seen (parcels ++ [c]) := by
  have hnew : c.data.salt ∉ own := fun hm =>
    (List.nodup_append.1 hn).2.2 _ hm _ (List.mem_singleton_self _) rfl
  refine ⟨?_, ?_, ?_, ?_, ?_⟩
  · intro b hb
    rcases List.mem_append.1 hb with hb | hb
    · exact h.written b hb
    · rwa [List.mem_singleton.1 hb]
  · intro b hb
    rcases List.mem_append.1 hb with hb | hb
    · exact h.under b hb
    · rwa [List.mem_singleton.1 hb]
  · intro b hb
    rcases List.mem_append.1 hb with hb | hb
    · exact List.mem_append_left _ (h.own b hb)
    · rw [List.mem_singleton.1 hb]
      exact List.mem_append_right _ (List.mem_singleton_self _)
  · intro b hb
    rcases List.mem_append.1 hb with hb | hb
    · exact h.unseen b hb
    · rw [List.mem_singleton.1 hb]
      exact fun hs => hnew (hseen hs)
  · rw [List.map_append, List.nodup_append]
    refine ⟨h.distinct, List.nodup_singleton _, ?_⟩
    intro y hy z hz hyz
    obtain ⟨b, hb, rfl⟩ := List.mem_map.1 hy
    rw [List.map_singleton, List.mem_singleton] at hz
    exact hnew (hz ▸ hyz ▸ h.own b hb)

theorem lose (h : Stream key headers own seen parcels) (i : Nat) :
    Stream key headers own seen (parcels.eraseIdx i) where
  written c hc := h.written c (List.mem_of_mem_eraseIdx hc)
  under c hc := h.under c (List.mem_of_mem_eraseIdx hc)
  own c hc := h.own c (List.mem_of_mem_eraseIdx hc)
  unseen c hc := h.unseen c (List.mem_of_mem_eraseIdx hc)
  distinct := h.distinct.sublist ((List.eraseIdx_sublist parcels i).map _)

/-- No other packet on its way brings the salt of one that is taken in. -/
theorem receive (h : Stream key headers own seen parcels) {i : Nat} (hi : parcels[i]? = some c) :
    Stream key headers own (seen ++ [c.data.salt]) (parcels.eraseIdx i) where
  written := (h.lose i).written
  under := (h.lose i).under
  own := (h.lose i).own
  unseen b hb hs := by
    rcases List.mem_append.1 hs with hs | hs
    · exact (h.lose i).unseen b hb hs
    · obtain ⟨j, hji, hj⟩ := List.mem_eraseIdx_iff_getElem?.1 hb
      have hsame : (parcels.map (·.data.salt))[j]? = (parcels.map (·.data.salt))[i]? := by
        rw [List.getElem?_map, List.getElem?_map, hi, hj]
        exact congrArg some (List.mem_singleton.1 hs)
      have hlt : j < (parcels.map (·.data.salt)).length := by
        rw [List.length_map]
        exact (List.getElem?_eq_some_iff.1 hj).1
      exact hji ((List.getElem?_inj hlt h.distinct).1 hsame)
  distinct := (h.lose i).distinct

end Stream

end SealedDatagram
