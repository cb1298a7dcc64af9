import DashTwrp.VendorBoot.Reader

namespace DashTwrp.VendorBoot

open DashTwrp.Python

/-! What the two readers return for an image that is cut off.

`rd` stops at the first table entry behind the end of the file and gives an
empty payload for a fragment that does not lie in the file; `parse` raises for
such an entry. -/

variable {d : Bytes} {ro tblo es i remaining index : Nat}

/-- The entry of a fragment, and what `rd` takes for its payload. -/
theorem readEntry_eq_ok {eo : Nat} {frag : Fragment} (read : readEntry d ro eo = .ok frag) :
    unpackU32 d eo = some frag.sz ∧ unpackU32 d (eo + 4) = some frag.off ∧
      unpackU32 d (eo + 8) = some frag.typ ∧
      frag.payload.length = if ro + frag.off + frag.sz ≤ d.length then frag.sz else 0 := by
  unfold readEntry at read
  split at read
  · rename_i sz off typ szRead offRead typRead
    simp only at read
    split at read
    · contradiction
    · cases read
      refine ⟨szRead, offRead, typRead, ?_⟩
      by_cases inside : ro + off + sz ≤ d.length
      · rw [if_pos inside, guarded_payload inside, length_slice, Nat.min_eq_left inside]
        exact Nat.add_sub_cancel_left ..
      · rw [if_neg inside, if_neg fun whole => inside whole.2]
        rfl
  · contradiction

theorem readFrags_entry {frags : List Fragment} {frag : Fragment}
    (read : readFrags d ro tblo es i remaining = .ok frags) (found : frags[index]? = some frag) :
    readEntry d ro (tblo + (i + index) * es) = .ok frag := by
  induction remaining generalizing i frags index with
  | zero =>
      cases read
      simp at found
  | succ remaining ih =>
      simp only [readFrags] at read
      split at read
      · cases read
        simp at found
      · cases entry : readEntry d ro (tblo + i * es) with
        | error error => simp [entry] at read
        | ok first =>
            cases later : readFrags d ro tblo es (i + 1) remaining with
            | error error => simp [entry, later] at read
            | ok rest =>
                simp only [entry, later, Except.ok.injEq] at read
                subst read
                cases index with
                | zero =>
                    rw [List.getElem?_cons_zero, Option.some.injEq] at found
                    rw [Nat.add_zero, entry, found]
                | succ index =>
                    rw [List.getElem?_cons_succ] at found
                    have next := ih later found
                    rw [Nat.add_right_comm i 1 index] at next
                    exact next

/-- The table entries inside the file are all read. -/
theorem readFrags_reach {frags : List Fragment}
    (read : readFrags d ro tblo es i remaining = .ok frags) (listed : index < remaining)
    (inside : tblo + (i + index) * es + 12 ≤ d.length) : index < frags.length := by
  induction remaining generalizing i frags index with
  | zero => contradiction
  | succ remaining ih =>
      have within : ¬ tblo + i * es + 12 > d.length := by
        have before : i * es ≤ (i + index) * es := Nat.mul_le_mul_right _ (Nat.le_add_right ..)
        omega
      simp only [readFrags, if_neg within] at read
      cases entry : readEntry d ro (tblo + i * es) with
      | error error => simp [entry] at read
      | ok first =>
          cases later : readFrags d ro tblo es (i + 1) remaining with
          | error error => simp [entry, later] at read
          | ok rest =>
              simp only [entry, later, Except.ok.injEq] at read
              subst read
              cases index with
              | zero => exact Nat.zero_lt_succ _
              | succ index =>
                  have next : tblo + (i + 1 + index) * es + 12 ≤ d.length := by
                    rw [Nat.add_right_comm i 1 index]
                    exact inside
                  exact Nat.succ_lt_succ (ih later (Nat.lt_of_succ_lt_succ listed) next)

/-- `parse` gives one payload for each entry of the table. -/
theorem parseFrags_eq_ok {frags : List Bytes}
    (read : parseFrags d ro tblo es i remaining = .ok frags) :
    frags.length = remaining ∧ ∀ index payload, frags[index]? = some payload →
      ∃ sz off, unpackU32 d (tblo + (i + index) * es) = some sz ∧
        unpackU32 d (tblo + (i + index) * es + 4) = some off ∧
        payload = slice d (ro + off : Nat) (ro + off + sz : Nat) := by
  induction remaining generalizing i frags with
  | zero =>
      cases read
      simp
  | succ remaining ih =>
      simp only [parseFrags] at read
      split at read
      · rename_i sz off typ szRead offRead typRead
        cases later : parseFrags d ro tblo es (i + 1) remaining with
        | error error => simp [later] at read
        | ok rest =>
            simp only [later, Except.ok.injEq] at read
            subst read
            obtain ⟨length, payloads⟩ := ih later
            refine ⟨by rw [List.length_cons, length], fun index payload found => ?_⟩
            cases index with
            | zero =>
                rw [List.getElem?_cons_zero, Option.some.injEq] at found
                exact ⟨sz, off, szRead, offRead, found.symm⟩
            | succ index =>
                rw [List.getElem?_cons_succ] at found
                have next := payloads index payload found
                rw [Nat.add_right_comm i 1 index] at next
                exact next
      · contradiction

theorem parseFrags_inside {frags : List Bytes}
    (read : parseFrags d ro tblo es i remaining = .ok frags) (listed : index < remaining) :
    tblo + (i + index) * es + 12 ≤ d.length := by
  induction remaining generalizing i frags index with
  | zero => contradiction
  | succ remaining ih =>
      simp only [parseFrags] at read
      split at read
      · rename_i sz off typ szRead offRead typRead
        cases later : parseFrags d ro tblo es (i + 1) remaining with
        | error error => simp [later] at read
        | ok rest =>
            cases index with
            | zero =>
                have bound := unpackU32_bound typRead
                rw [Nat.add_zero]
                omega
            | succ index =>
                have next := ih later (Nat.lt_of_succ_lt_succ listed)
                rw [Nat.add_right_comm i 1 index] at next
                exact next
      · contradiction

theorem parseFrags_error {error : ReadError}
    (failed : parseFrags d ro tblo es i remaining = .error error) : error = .structError := by
  induction remaining generalizing i with
  | zero => cases failed
  | succ remaining ih =>
      simp only [parseFrags] at failed
      split at failed
      · cases later : parseFrags d ro tblo es (i + 1) remaining with
        | error other =>
            simp only [later, Except.error.injEq] at failed
            subst failed
            exact ih later
        | ok rest => simp [later] at failed
      · cases failed
        rfl

/-- The numbers that both readers take from the header: where the ramdisk
section and the table start, and how many entries of which size the table has. -/
structure Header (d : Bytes) (ro tblo ec es : Nat) : Prop where
  sections : ∃ hs ds rs, unpackU32 d 2096 = some hs ∧ unpackU32 d 2100 = some ds ∧
    unpackU32 d 24 = some rs ∧ ro = align hs pageSize ∧
    tblo = align (align (ro + rs) pageSize + align ds pageSize) pageSize
  count : unpackU32 d 2116 = some ec
  entrySize : unpackU32 d 2120 = some es

theorem rd_header {tpl : Image} (read : rd d = .ok tpl) :
    Header d tpl.ro tpl.tblo tpl.ec tpl.es := by
  obtain ⟨-, -, hsRead, dsRead, ecRead, esRead, rsRead, -, roEq, dtboEq, tbloEq, -⟩ := rd_eq_ok read
  rw [dtboEq] at tbloEq
  exact ⟨⟨_, _, _, hsRead, dsRead, rsRead, roEq, tbloEq⟩, ecRead, esRead⟩

theorem parse_of_header {ec : Nat} (header : Header d ro tblo ec es) :
    parse d = parseFrags d ro tblo es 0 ec := by
  obtain ⟨⟨hs, ds, rs, hsRead, dsRead, rsRead, rfl, rfl⟩, ecRead, esRead⟩ := header
  simp only [parse, hsRead, dsRead, rsRead, ecRead, esRead]

theorem parse_header {frags : List Bytes} (read : parse d = .ok frags) :
    ∃ ro tblo ec es, Header d ro tblo ec es := by
  unfold parse at read
  split at read
  · rename_i hs ds rs ec es hsRead dsRead rsRead ecRead esRead
    exact ⟨_, _, ec, es, ⟨hs, ds, rs, hsRead, dsRead, rsRead, rfl, rfl⟩, ecRead, esRead⟩
  · contradiction

/-- Both readers return whole fragments only, one for each entry of the table. -/
def ReadWhole (d : Bytes) : Prop :=
  (∀ tpl, rd d = .ok tpl → tpl.frags.length = tpl.ec ∧
    ∀ frag ∈ tpl.frags, frag.payload.length = frag.sz) ∧
  ∀ frags, parse d = .ok frags → ∃ ro tblo ec es, Header d ro tblo ec es ∧ frags.length = ec ∧
    ∀ index payload, frags[index]? = some payload →
      unpackU32 d (tblo + index * es) = some payload.length

/-- What the readers return for any image.  `rd` gives a fragment for each table
entry inside the file and a payload for each fragment that lies in the file;
`parse` gives one for every entry or raises. -/
theorem readers_on_any_image (d : Bytes) :
    (∀ tpl, rd d = .ok tpl → Header d tpl.ro tpl.tblo tpl.ec tpl.es ∧
      tpl.frags.length ≤ tpl.ec ∧
      (∀ index < tpl.ec,
        index < tpl.frags.length ↔ tpl.tblo + index * tpl.es + 12 ≤ d.length) ∧
      ∀ index frag, tpl.frags[index]? = some frag →
        unpackU32 d (tpl.tblo + index * tpl.es) = some frag.sz ∧
        unpackU32 d (tpl.tblo + index * tpl.es + 4) = some frag.off ∧
        frag.payload.length = if tpl.ro + frag.off + frag.sz ≤ d.length then frag.sz else 0) ∧
    (∀ frags, parse d = .ok frags → ∃ ro tblo ec es, Header d ro tblo ec es ∧ frags.length = ec ∧
      ∀ index payload, frags[index]? = some payload →
        ∃ sz off, unpackU32 d (tblo + index * es) = some sz ∧
          unpackU32 d (tblo + index * es + 4) = some off ∧
          (ro + off + sz ≤ d.length → payload.length = sz)) ∧
    ∀ ro tblo ec es, Header d ro tblo ec es →
      (∃ index < ec, d.length < tblo + index * es + 12) → parse d = .error .structError := by
  refine ⟨fun tpl read => ?_, fun frags read => ?_, fun ro tblo ec es header cut => ?_⟩
  · obtain ⟨-, -, -, -, -, -, -, -, -, -, -, fragsRead⟩ := rd_eq_ok read
    refine ⟨rd_header read, length_readFrags_le fragsRead, fun index listed => ⟨fun inside => ?_,
      fun inside => ?_⟩, fun index frag found => ?_⟩
    · have within := readFrags_inside fragsRead index inside
      rwa [Nat.zero_add] at within
    · exact readFrags_reach fragsRead listed (by rwa [Nat.zero_add])
    · have entry := readFrags_entry fragsRead found
      rw [Nat.zero_add] at entry
      obtain ⟨szRead, offRead, -, length⟩ := readEntry_eq_ok entry
      exact ⟨szRead, offRead, length⟩
  · obtain ⟨ro, tblo, ec, es, header⟩ := parse_header read
    rw [parse_of_header header] at read
    obtain ⟨length, payloads⟩ := parseFrags_eq_ok read
    refine ⟨ro, tblo, ec, es, header, length, fun index payload found => ?_⟩
    obtain ⟨sz, off, szRead, offRead, rfl⟩ := payloads index payload found
    rw [Nat.zero_add] at szRead offRead
    refine ⟨sz, off, szRead, offRead, fun inside => ?_⟩
    rw [length_slice, Nat.min_eq_left inside]
    exact Nat.add_sub_cancel_left ..
  · obtain ⟨index, listed, behind⟩ := cut
    rw [parse_of_header header]
    cases read : parseFrags d ro tblo es 0 ec with
    | error error => rw [parseFrags_error read]
    | ok frags =>
        have inside := parseFrags_inside read listed
        rw [Nat.zero_add] at inside
        omega

/-- An image that is cut off behind its header, which announces two fragments. -/
def headerOnly : Bytes :=
  List.replicate 2096 0 ++ le32 4096 ++ List.replicate 16 0 ++ le32 2 ++ le32 108 ++ le32 0

theorem readWhole_headerOnly : ¬ ReadWhole headerOnly := by
  intro whole
  have read : (rd headerOnly).map (fun tpl => (tpl.frags.length, tpl.ec)) = .ok (0, 2) := by
    decide +kernel
  cases found : rd headerOnly with
  | error error =>
      rw [found] at read
      cases read
  | ok tpl =>
      rw [found] at read
      simp only [Except.map, Except.ok.injEq, Prod.mk.injEq] at read
      have count := (whole.1 tpl found).1
      omega

end DashTwrp.VendorBoot
