import ZeroCode.Api.Views
import ZeroCode.Foundation.Paging
import ZeroCode.Worker.Identity

/-!
# The list of submissions

A client reads the table page by page, newest rows first. The offset of a page is a product
of two numbers of 32 bits, computed in 32 bits. The query orders by the time of the insert
alone, so each request may break ties its own way. The pages partition the listing exactly
where no product wraps and no two rows of one time lie on both sides of an end of a page.
-/

namespace ZeroCode.Api

open ZeroCode.Core ZeroCode.Foundation ZeroCode.Worker

/-- What a client may ask for. -/
structure ListParams where
  page : Option UInt32
  perPage : Option UInt32
  status : Option String
  deriving DecidableEq, Repr

/-- The number of rows of a page. -/
def pageSize (perPage : Option UInt32) : UInt32 := max 1 (min (perPage.getD 20) 100)

/-- The number of the page. -/
def pageNumber (page : Option UInt32) : UInt32 := max (page.getD 1) 1

/-- The first rank of the page, as it is computed. -/
def ListParams.offset (params : ListParams) : ℕ := ((pageNumber params.page - 1) * pageSize params.perPage).toNat

/-- The rows with the status the client asks for. -/
def matchingRows (rows : List Row) (statusFilter : Option String) : List Row :=
  rows.filter fun r => statusFilter.all fun text => r.status.text == text

/-- The rows are some that a list query may select. -/
def SelectsRows (rows : List Row) (statusFilter : Option String) (limit offset : ℕ) (chosen : List Row) : Prop :=
  ∃ order, Ordered Row.createdAt (matchingRows rows statusFilter) order ∧ chosen = pageOf order offset limit

/-- The submissions of a page are those of the selected rows. -/
theorem listsSubmissions_iff {rows : List Row} {statusFilter : Option String} {limit offset : ℕ}
    {items : List Submission} :
    ListsSubmissions rows statusFilter limit offset items ↔
      ∃ chosen, SelectsRows rows statusFilter limit offset chosen ∧ chosen.mapM readRow = .ok items := by
  constructor
  · rintro ⟨order, hperm, hsorted, hitems⟩
    exact ⟨_, ⟨order, ⟨hperm, hsorted⟩, rfl⟩, hitems⟩
  · rintro ⟨_, ⟨order, horder, rfl⟩, hitems⟩
    exact ⟨order, horder.perm, horder.sorted, hitems⟩

/-- A page of the list. -/
structure SubmissionList (P : Type) where
  items : List (SubmissionView P)
  page : UInt32
  perPage : UInt32
  total : ℕ

/-- The tokens on a page. -/
def SubmissionList.tokens {P : Type} (list : SubmissionList P) : List Token := list.items.map SubmissionView.token

section Listing

variable {P : Type} (present : Bytes → P)

/-- The answer of the handler for the selected rows. -/
def ListParams.answer (params : ListParams) (rows chosen : List Row) : Except ApiError (SubmissionList P) :=
  (chosen.mapM readRow).map fun items =>
    { items := items.map (SubmissionView.of present)
      page := pageNumber params.page
      perPage := pageSize params.perPage
      total := (matchingRows rows params.status).length }

/-- The answer is one the list handler may give. -/
def Lists (rows : List Row) (params : ListParams) (answer : Except ApiError (SubmissionList P)) : Prop :=
  ∃ chosen, SelectsRows rows params.status (pageSize params.perPage).toNat params.offset chosen ∧
    answer = params.answer present rows chosen

/-- The pages partition the listing: no offset wraps, every page has the rows of its ranks in one order, different pages
are disjoint, and all pages together have every row. -/
structure PartitionsListing (rows : List Row) (status : Option String) (perPage : Option UInt32) (pages : Set UInt32) :
    Prop where
  offset : ∀ page ∈ pages,
    (ListParams.mk (some page) perPage status).offset = (page.toNat - 1) * (pageSize perPage).toNat
  ranks : ∃ order, order.Perm (matchingRows rows status) ∧ ∀ page ∈ pages, ∀ answer,
    Lists present rows ⟨some page, perPage, status⟩ answer → ∃ list, answer = .ok list ∧ list.tokens.Perm
      ((pageOf order ((page.toNat - 1) * (pageSize perPage).toNat) (pageSize perPage).toNat).map Row.token)
  disjoint : ∀ page ∈ pages, ∀ page' ∈ pages, page ≠ page' → ∀ list list',
    Lists present rows ⟨some page, perPage, status⟩ (.ok list) →
      Lists present rows ⟨some page', perPage, status⟩ (.ok list') → list.tokens.Disjoint list'.tokens
  cover : ∀ lists : UInt32 → SubmissionList P,
    (∀ page ∈ pages, Lists present rows ⟨some page, perPage, status⟩ (.ok (lists page))) →
      (∀ n, n * (pageSize perPage).toNat < (matchingRows rows status).length → ∃ page ∈ pages, page.toNat = n + 1) →
        ∀ r ∈ matchingRows rows status, ∃ page ∈ pages, r.token ∈ (lists page).tokens

/-- The product of a page does not wrap, and no two rows of one time lie on both sides of an end of the page. -/
structure PageSafe (rows : List Row) (status : Option String) (perPage : Option UInt32) (page : UInt32) : Prop where
  fits : (page.toNat - 1) * (pageSize perPage).toNat < 2 ^ 32
  start : ¬ Tied (sortedKeys Row.createdAt (matchingRows rows status)) ((page.toNat - 1) * (pageSize perPage).toNat)
  stop : ¬ Tied (sortedKeys Row.createdAt (matchingRows rows status))
    ((page.toNat - 1) * (pageSize perPage).toNat + (pageSize perPage).toNat)

/-- A page has at least one row. -/
theorem pageSize_pos (perPage : Option UInt32) : 0 < (pageSize perPage).toNat := by
  change 0 < (if 1 ≤ min (perPage.getD 20) 100 then min (perPage.getD 20) 100 else (1 : UInt32)).toNat
  split
  · rename_i hle
    exact UInt32.le_iff_toNat_le.mp hle
  · decide

/-- The offset is the first rank of the page in 32 bits. -/
theorem offset_eq {page : UInt32} (hpage : 1 ≤ page) (perPage : Option UInt32) (status : Option String) :
    (ListParams.mk (some page) perPage status).offset = (page.toNat - 1) * (pageSize perPage).toNat % 2 ^ 32 := by
  have hnumber : pageNumber (some page) = page := by
    change (if page ≤ 1 then (1 : UInt32) else page) = page
    split
    · rename_i hle
      exact UInt32.le_antisymm hpage hle
    · rfl
  rw [ListParams.offset, hnumber, UInt32.toNat_mul, UInt32.toNat_sub_of_le _ _ hpage]
  rfl

/-- The offset is the first rank of the page when it fits. -/
theorem offset_eq_iff {page : UInt32} (hpage : 1 ≤ page) (perPage : Option UInt32) (status : Option String) :
    (ListParams.mk (some page) perPage status).offset = (page.toNat - 1) * (pageSize perPage).toNat ↔
      (page.toNat - 1) * (pageSize perPage).toNat < 2 ^ 32 := by
  rw [offset_eq hpage]
  constructor
  · intro hsame
    exact hsame ▸ Nat.mod_lt _ (Nat.two_pow_pos 32)
  · exact Nat.mod_eq_of_lt

/-- The rows of a page are rows of the table. -/
theorem pageOf_subperm {rows order : List Row} {status : Option String} (horder : order.Perm (matchingRows rows status))
    (offset limit : ℕ) : (pageOf order offset limit).Subperm rows := by
  have hpage : (pageOf order offset limit).Sublist order := (List.take_sublist _ _).trans (List.drop_sublist _ _)
  exact (hpage.subperm.trans horder.subperm).trans List.filter_sublist.subperm

variable {present}

/-- Whatever rows are selected, they are answered with their tokens. -/
theorem exists_answer {s : Fleet} (h : FleetInv s) {params : ListParams} {limit offset : ℕ} {chosen : List Row}
    (hchosen : SelectsRows s.rows params.status limit offset chosen) :
    ∃ list, params.answer present s.rows chosen = .ok list ∧ list.tokens = chosen.map Row.token := by
  obtain ⟨order, horder, rfl⟩ := hchosen
  obtain ⟨items, hitems, htokens⟩ := exists_items_of_rows fun r hr =>
    (h.rows r ((pageOf_subperm horder.perm offset limit).subset hr)).parses
  refine ⟨_, by rw [ListParams.answer, hitems]; rfl, ?_⟩
  rw [← htokens, SubmissionList.tokens, List.map_map]
  rfl

/-- Every answer shows the selected rows. -/
theorem Lists.exists_selected {s : Fleet} (h : FleetInv s) {params : ListParams}
    {answer : Except ApiError (SubmissionList P)} (hlists : Lists present s.rows params answer) :
    ∃ chosen list, SelectsRows s.rows params.status (pageSize params.perPage).toNat params.offset chosen ∧
      answer = .ok list ∧ list.tokens = chosen.map Row.token := by
  obtain ⟨chosen, hchosen, rfl⟩ := hlists
  obtain ⟨list, hanswer, htokens⟩ := exists_answer h hchosen
  exact ⟨chosen, list, hchosen, hanswer, htokens⟩

/-- A safe page shows the rows of its ranks, whatever order the query picks. -/
theorem PageSafe.shows {s : Fleet} (h : FleetInv s) {status : Option String} {perPage : Option UInt32} {page : UInt32}
    (hpage : 1 ≤ page) (hsafe : PageSafe s.rows status perPage page) {order : List Row}
    (horder : Ordered Row.createdAt (matchingRows s.rows status) order) {answer : Except ApiError (SubmissionList P)}
    (hlists : Lists present s.rows ⟨some page, perPage, status⟩ answer) :
    ∃ list, answer = .ok list ∧ list.tokens.Perm
      ((pageOf order ((page.toNat - 1) * (pageSize perPage).toNat) (pageSize perPage).toNat).map Row.token) := by
  obtain ⟨chosen, list, ⟨order', horder', rfl⟩, hanswer, htokens⟩ := hlists.exists_selected h
  refine ⟨list, hanswer, ?_⟩
  rw [htokens, (offset_eq_iff hpage perPage status).mpr hsafe.fits]
  exact (horder'.page_perm horder hsafe.start hsafe.stop).map Row.token

/-- The pages are safe if they partition the listing. -/
theorem PartitionsListing.pageSafe {s : Fleet} (h : FleetInv s) {status : Option String} {perPage : Option UInt32}
    {pages : Set UInt32} (hpages : ∀ page ∈ pages, 1 ≤ page)
    (hpartitions : PartitionsListing present s.rows status perPage pages) {page : UInt32} (hpage : page ∈ pages) :
    PageSafe s.rows status perPage page := by
  have hoffset := hpartitions.offset page hpage
  have hnodup : (matchingRows s.rows status).Nodup := (h.tokens.of_map Row.token).sublist List.filter_sublist
  obtain ⟨fixed, hfixed, hranks⟩ := hpartitions.ranks
  have hshown {order : List Row} (horder : Ordered Row.createdAt (matchingRows s.rows status) order) :
      (pageOf order ((page.toNat - 1) * (pageSize perPage).toNat) (pageSize perPage).toNat).Perm
        (pageOf fixed ((page.toNat - 1) * (pageSize perPage).toNat) (pageSize perPage).toNat) := by
    have hselects : SelectsRows s.rows status (pageSize perPage).toNat
        (ListParams.mk (some page) perPage status).offset _ := ⟨order, horder, rfl⟩
    obtain ⟨list, hanswer, htokens⟩ := @exists_answer P present s h ⟨some page, perPage, status⟩ _ _ _ hselects
    obtain ⟨list', hlist', hperm⟩ := hranks page hpage _ ⟨_, hselects, hanswer.symm⟩
    cases hlist'
    rw [htokens, hoffset] at hperm
    exact perm_of_map_key_perm h.tokens (pageOf_subperm horder.perm _ _) (pageOf_subperm hfixed _ _) hperm
  obtain ⟨hstart, hstop⟩ := (page_determined_iff (pageSize_pos perPage) hnodup).mp fun order order' horder horder' =>
    (hshown horder).trans (hshown horder').symm
  exact ⟨(offset_eq_iff (hpages page hpage) perPage status).mp hoffset, hstart, hstop⟩

/-- Safe pages partition the listing. -/
theorem partitionsListing_of_pageSafe {s : Fleet} (h : FleetInv s) {status : Option String} {perPage : Option UInt32}
    {pages : Set UInt32} (hpages : ∀ page ∈ pages, 1 ≤ page)
    (hsafe : ∀ page ∈ pages, PageSafe s.rows status perPage page) :
    PartitionsListing present s.rows status perPage pages := by
  have hnodup : (matchingRows s.rows status).Nodup := (h.tokens.of_map Row.token).sublist List.filter_sublist
  have horder : Ordered Row.createdAt (matchingRows s.rows status) _ := ordered_insertionSort _
  generalize (matchingRows s.rows status).insertionSort (fun a b => b.createdAt ≤ a.createdAt) = order at horder
  have hshows (page : UInt32) (hpage : page ∈ pages) {list : SubmissionList P}
      (hlists : Lists present s.rows ⟨some page, perPage, status⟩ (.ok list)) : list.tokens.Perm
        ((pageOf order ((page.toNat - 1) * (pageSize perPage).toNat) (pageSize perPage).toNat).map Row.token) := by
    obtain ⟨list', hlist', hperm⟩ := (hsafe page hpage).shows h (hpages page hpage) horder hlists
    cases hlist'
    exact hperm
  refine ⟨fun page hpage => ?_, ⟨order, horder.perm, fun page hpage answer hlists => ?_⟩, ?_, ?_⟩
  · exact (offset_eq_iff (hpages page hpage) perPage status).mpr (hsafe page hpage).fits
  · exact (hsafe page hpage).shows h (hpages page hpage) horder hlists
  · intro page hpage page' hpage' hne list list' hlists hlists' token htoken htoken'
    obtain ⟨r, hr, rfl⟩ := List.mem_map.mp ((hshows page hpage hlists).mem_iff.mp htoken)
    obtain ⟨r', hr', hsame⟩ := List.mem_map.mp ((hshows page' hpage' hlists').mem_iff.mp htoken')
    have hrow : r' = r := eq_of_key_eq h.tokens ((pageOf_subperm horder.perm _ _).subset hr')
      ((pageOf_subperm horder.perm _ _).subset hr) hsame
    have hnumber : page.toNat - 1 ≠ page'.toNat - 1 := by
      have hone := UInt32.le_iff_toNat_le.mp (hpages page hpage)
      have hone' := UInt32.le_iff_toNat_le.mp (hpages page' hpage')
      have hdiff : page.toNat ≠ page'.toNat := fun heq => hne (UInt32.toNat_inj.mp heq)
      have hliteral : (1 : UInt32).toNat = 1 := rfl
      omega
    exact pageOf_disjoint (horder.perm.nodup_iff.mpr hnodup) hnumber hr (hrow ▸ hr')
  · intro lists hlists hall r hr
    obtain ⟨n, hn, hmem⟩ := exists_pageOf (pageSize_pos perPage) (horder.perm.mem_iff.mpr hr)
    obtain ⟨page, hpage, hnumber⟩ := hall n (horder.perm.length_eq ▸ hn)
    refine ⟨page, hpage, (hshows page hpage (hlists page hpage)).mem_iff.mpr (List.mem_map_of_mem ?_)⟩
    rwa [hnumber, Nat.add_sub_cancel]

end Listing

/-- What a worker writes back is a result of a backend. -/
def JudgedStore : StoreAction → Prop
  | .fleet a => Judged a
  | _ => True

/-- The tables of a run are well formed. -/
theorem fleetInv_of_reaches {s : Fleet} (reached : Reaches storeStep (fun _ a => JudgedStore a) Fleet.init s) :
    FleetInv s :=
  reached.invariant FleetInv FleetInv.init fun _ _ _ h hjudged hstep =>
    fleetInv_of_storeStep h (fun _ ha => by subst ha; exact hjudged) hstep

/-- Two submissions, the second one so many seconds after the first. -/
def twoInserts (seconds : ℕ) : List StoreAction :=
  [.fleet (.insert (NewSubmission.blank 1)), .fleet (.tick seconds), .fleet (.insert (NewSubmission.blank 2))]

/-- The table with these submissions. -/
def twoRows (seconds : ℕ) : Fleet := lastState storeStep Fleet.init (twoInserts seconds)

/-- The table is one of a run. -/
theorem reaches_twoRows {seconds : ℕ} (hruns : (runActions storeStep Fleet.init (twoInserts seconds)).isSome = true) :
    Reaches storeStep (fun _ a => JudgedStore a) Fleet.init (twoRows seconds) := by
  refine .of_runActions_forall (twoInserts seconds) ?_ (runActions_eq_lastState hruns)
  simp [twoInserts, JudgedStore, Judged]

/-- In every table of a run, pages partition the listing exactly if each of them is safe. -/
theorem partitionsListing_iff {s : Fleet} (reached : Reaches storeStep (fun _ a => JudgedStore a) Fleet.init s)
    {P : Type} (present : Bytes → P) (status : Option String) (perPage : Option UInt32) {pages : Set UInt32}
    (hpages : ∀ page ∈ pages, 1 ≤ page) :
    PartitionsListing present s.rows status perPage pages ↔ ∀ page ∈ pages, PageSafe s.rows status perPage page := by
  have h := fleetInv_of_reaches reached
  exact ⟨fun hpartitions _ hpage => hpartitions.pageSafe h hpages hpage, partitionsListing_of_pageSafe h hpages⟩

/-- Two rows of different times are on the two pages of one row each. -/
theorem partitionsListing_iff_two : PartitionsListing id (twoRows 1).rows none (some 1) {1, 2} :=
  (partitionsListing_iff (reaches_twoRows (by decide +kernel)) id none (some 1) (by simp)).mpr (by
    rintro page (rfl | rfl)
    · exact ⟨by decide +kernel, by decide +kernel, by decide +kernel⟩
    · exact ⟨by decide +kernel, by decide +kernel, by decide +kernel⟩)

/-- Two rows of one time may both be missing from the pages of one row each, and with two rows on a page the product
of page 2147483649 wraps. -/
theorem listing_not_partitioned :
    ¬ PartitionsListing id (twoRows 0).rows none (some 1) {page | 1 ≤ page} ∧
      ¬ PartitionsListing id (twoRows 1).rows none (some 2) {page | 1 ≤ page} := by
  constructor
  · intro hpartitions
    have hsafe := hpartitions.pageSafe (fleetInv_of_reaches (reaches_twoRows (by decide +kernel))) (fun _ hpage => hpage)
      (by decide : (1 : UInt32) ≤ 1)
    exact hsafe.stop (by decide +kernel)
  · intro hpartitions
    have hsafe := hpartitions.pageSafe (fleetInv_of_reaches (reaches_twoRows (by decide +kernel))) (fun _ hpage => hpage)
      (by decide : (1 : UInt32) ≤ 2147483649)
    exact absurd hsafe.fits (by decide)

end ZeroCode.Api
