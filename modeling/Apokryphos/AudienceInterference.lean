import Apokryphos.DistinctDigests
import Apokryphos.RefreshTasks
import Apokryphos.ReplayRefinement

/-!
Two audiences, one replay store. The calls of one audience are taken out of a
sequence, and the results of the other audience's calls are compared with the
ones of the full sequence. The keys of the two never meet; what they do share is
the room in the store.
-/
namespace AudienceInterference
open Digests DistinctDigests Outcomes RefreshTasks ReplayRefinement ReplayStore ServerConfig

inductive Use where
  | tryInsert (tag : AudienceTag) (jti : String) (deadline : Instant)
  | maintenanceTick (now : Instant)
  deriving DecidableEq

def results (g : AudienceTag) : JtiReplayStore → List Use → List (Except InsertError Unit)
  | _, [] => []
  | s, .tryInsert tag jti deadline :: rest =>
    let answered := ReplayStore.tryInsert s (JtiKey.new tag.asJtiKeyByte jti) deadline
    if tag = g then answered.1 :: results g answered.2 rest else results g answered.2 rest
  | s, .maintenanceTick now :: rest => results g (ReplayStore.maintenanceTick s now) rest

def Use.insertsFor (g : AudienceTag) : Use → Bool
  | .tryInsert tag _ _ => decide (tag = g)
  | .maintenanceTick _ => false

def without (g : AudienceTag) (uses : List Use) : List Use :=
  uses.filter fun u => !u.insertsFor g

/-- The smaller store holds the entries of the one audience, and no others. -/
structure Alike (g : AudienceTag) (s t : JtiReplayStore) : Prop where
  full : Faithful s
  own : Faithful t
  config : t.config = s.config
  restricted : contents t = (contents s).filter fun pair => pair.1.audience = g.asJtiKeyByte

theorem jtiKeyByte_injective {g tag : AudienceTag} (same : g.asJtiKeyByte = tag.asJtiKeyByte) :
    g = tag := by
  cases g <;> cases tag
  · rfl
  · exact absurd same (by decide)
  · exact absurd same (by decide)
  · rfl

theorem new_alike (g : AudienceTag) (config : AuthConfig) :
    Alike g (JtiReplayStore.new config) (JtiReplayStore.new config) where
  full := new_faithful config
  own := new_faithful config
  config := rfl
  restricted := by rw [new_contents, Finset.filter_empty]

theorem tick_alike {g : AudienceTag} {s t : JtiReplayStore} (alike : Alike g s t) (now : Instant) :
    Alike g (ReplayStore.maintenanceTick s now) (ReplayStore.maintenanceTick t now) where
  full := tick_faithful alike.full now
  own := tick_faithful alike.own now
  config := by rw [maintenanceTick_config, maintenanceTick_config, alike.config]
  restricted := by
    rw [← tick_refines alike.full, ← tick_refines alike.own, alike.restricted]
    exact Finset.filter_comm _ _ _

theorem tryInsert_contents (s : JtiReplayStore) (key : JtiKey) (deadline : Instant) :
    contents (ReplayStore.tryInsert s key deadline).2 = contents s ∨
      contents (ReplayStore.tryInsert s key deadline).2 = insert (key, deadline) (contents s) := by
  have refined := congrArg Prod.snd (tryInsert_refines s key deadline)
  dsimp only at refined
  rw [← refined]
  unfold SeenMap.tryInsert
  split
  · exact .inl rfl
  · split
    · exact .inl rfl
    · exact .inr rfl

theorem foreign_alike {g tag : AudienceTag} {s t : JtiReplayStore} (alike : Alike g s t)
    (foreign : tag ≠ g) (jti : String) (deadline : Instant) :
    Alike g (ReplayStore.tryInsert s (JtiKey.new tag.asJtiKeyByte jti) deadline).2 t where
  full := tryInsert_faithful alike.full rfl
  own := alike.own
  config := alike.config.trans (tryInsert_config rfl).symm
  restricted := by
    rw [alike.restricted]
    rcases tryInsert_contents s (JtiKey.new tag.asJtiKeyByte jti) deadline with same | added
    · rw [same]
    · rw [added, Finset.filter_insert, if_neg]
      intro same
      exact foreign (jtiKeyByte_injective same)

theorem own_seen {g : AudienceTag} {s t : JtiReplayStore} (alike : Alike g s t) {key : JtiKey}
    (tagged : key.audience = g.asJtiKeyByte) :
    (∃ pair ∈ contents t, pair.1 = key) ↔ ∃ pair ∈ contents s, pair.1 = key := by
  rw [alike.restricted]
  constructor
  · rintro ⟨pair,member,same⟩
    exact ⟨pair,(Finset.mem_filter.mp member).1,same⟩
  · rintro ⟨pair,member,same⟩
    exact ⟨pair,Finset.mem_filter.mpr ⟨member,by rw [same, tagged]⟩,same⟩

theorem restricted_card {g : AudienceTag} {s t : JtiReplayStore} (alike : Alike g s t) :
    (contents t).card ≤ (contents s).card := by
  rw [alike.restricted]
  exact Finset.card_filter_le _ _

theorem inserted_alike {g : AudienceTag} {s t : JtiReplayStore} (alike : Alike g s t) (key : JtiKey)
    (deadline : Instant)
    (restricted : contents (ReplayStore.tryInsert t key deadline).2 =
      (contents (ReplayStore.tryInsert s key deadline).2).filter fun pair =>
        pair.1.audience = g.asJtiKeyByte) :
    Alike g (ReplayStore.tryInsert s key deadline).2 (ReplayStore.tryInsert t key deadline).2 where
  full := tryInsert_faithful alike.full rfl
  own := tryInsert_faithful alike.own rfl
  config := by
    have same : (ReplayStore.tryInsert s key deadline).2.config = s.config := tryInsert_config rfl
    have same' : (ReplayStore.tryInsert t key deadline).2.config = t.config := tryInsert_config rfl
    rw [same, same', alike.config]
  restricted := restricted

/-- An insertion of the audience itself is answered alike in both stores, unless
    the larger one has no room where the smaller one has. -/
theorem own_alike {g : AudienceTag} {s t : JtiReplayStore} (alike : Alike g s t) {key : JtiKey}
    (tagged : key.audience = g.asJtiKeyByte) (deadline : Instant) :
    ((ReplayStore.tryInsert t key deadline).1 = (ReplayStore.tryInsert s key deadline).1 ∧
      Alike g (ReplayStore.tryInsert s key deadline).2 (ReplayStore.tryInsert t key deadline).2) ∨
    ((ReplayStore.tryInsert s key deadline).1 = .error .memoryPressure ∧
      (ReplayStore.tryInsert t key deadline).1 = .ok ()) := by
  have larger := tryInsert_refines s key deadline
  have smaller := tryInsert_refines t key deadline
  rw [alike.config] at smaller
  unfold SeenMap.tryInsert at larger smaller
  by_cases known : ∃ pair ∈ contents s, pair.1 = key
  · rw [if_pos known, Prod.mk.injEq] at larger
    rw [if_pos ((own_seen alike tagged).mpr known), Prod.mk.injEq] at smaller
    refine .inl ⟨smaller.1.symm.trans larger.1,inserted_alike alike key deadline ?_⟩
    rw [← larger.2, ← smaller.2, alike.restricted]
  · rw [if_neg known] at larger
    rw [if_neg (known ∘ (own_seen alike tagged).mp)] at smaller
    by_cases pressed : s.config.maxReplayEntries ≤ (contents s).card
    · rw [if_pos pressed, Prod.mk.injEq] at larger
      by_cases pressed' : s.config.maxReplayEntries ≤ (contents t).card
      · rw [if_pos pressed', Prod.mk.injEq] at smaller
        refine .inl ⟨smaller.1.symm.trans larger.1,inserted_alike alike key deadline ?_⟩
        rw [← larger.2, ← smaller.2, alike.restricted]
      · rw [if_neg pressed', Prod.mk.injEq] at smaller
        exact .inr ⟨larger.1.symm,smaller.1.symm⟩
    · rw [if_neg pressed, Prod.mk.injEq] at larger
      have fits : ¬ s.config.maxReplayEntries ≤ (contents t).card :=
        fun pressed' => pressed (Nat.le_trans pressed' (restricted_card alike))
      rw [if_neg fits, Prod.mk.injEq] at smaller
      refine .inl ⟨smaller.1.symm.trans larger.1,inserted_alike alike key deadline ?_⟩
      rw [← larger.2, ← smaller.2, Finset.filter_insert, if_pos tagged, alike.restricted]

theorem without_changes {g : AudienceTag} {s t : JtiReplayStore} (alike : Alike g s t)
    (uses : List Use) :
    results g t (without g.counterpart uses) = results g s uses ∨
    ∃ before after after', results g s uses = before ++ .error .memoryPressure :: after ∧
      results g t (without g.counterpart uses) = before ++ .ok () :: after' := by
  induction uses generalizing s t with
  | nil => exact .inl rfl
  | cons u rest ih =>
    cases u with
    | maintenanceTick now => exact ih (tick_alike alike now)
    | tryInsert tag jti deadline =>
      by_cases own : tag = g
      · subst own
        have stays : without tag.counterpart (.tryInsert tag jti deadline :: rest) =
            .tryInsert tag jti deadline :: without tag.counterpart rest := by
          cases tag <;> rfl
        rw [stays]
        simp only [results, if_pos]
        rcases @own_alike tag s t alike (JtiKey.new tag.asJtiKeyByte jti) rfl deadline with ⟨same,next⟩ | ⟨pressed,accepted⟩
        · rw [same]
          rcases ih next with equal | ⟨before,after,after',full,restricted⟩
          · exact .inl (by rw [equal])
          · exact .inr ⟨_ :: before,after,after',by rw [full]; rfl,by rw [restricted]; rfl⟩
        · rw [pressed, accepted]
          exact .inr ⟨[],_,_,rfl,rfl⟩
      · have removed : without g.counterpart (.tryInsert tag jti deadline :: rest) =
            without g.counterpart rest := by
          cases g <;> cases tag
          · exact absurd rfl own
          · rfl
          · rfl
          · exact absurd rfl own
        rw [removed]
        simp only [results, if_neg own]
        exact ih (foreign_alike alike own jti deadline)

/-- The first result that the other audience's calls change, if there is one, is
    a memory pressure in the place of a success. -/
theorem only_pressure_interferes (config : AuthConfig) (g : AudienceTag) (uses : List Use) :
    results g (JtiReplayStore.new config) (without g.counterpart uses) =
      results g (JtiReplayStore.new config) uses ∨
    ∃ before after after',
      results g (JtiReplayStore.new config) uses = before ++ .error .memoryPressure :: after ∧
      results g (JtiReplayStore.new config) (without g.counterpart uses) =
        before ++ .ok () :: after' :=
  without_changes (new_alike g config) uses

theorem tryInsert_grows {s : JtiReplayStore} {key : JtiKey}
    (absent : ∀ pair ∈ contents s, pair.1 ≠ key)
    (room : (contents s).card < s.config.maxReplayEntries) (deadline : Instant) :
    contents (ReplayStore.tryInsert s key deadline).2 = insert (key, deadline) (contents s) ∧
      (contents (ReplayStore.tryInsert s key deadline).2).card = (contents s).card + 1 := by
  have refined := congrArg Prod.snd (tryInsert_refines s key deadline)
  unfold SeenMap.tryInsert at refined
  rw [if_neg (fun ⟨pair,member,same⟩ => absent pair member same), if_neg (not_le.mpr room)] at refined
  dsimp only at refined
  rw [← refined, Finset.card_insert_of_notMem fun member => absent _ member rfl]
  exact ⟨rfl,rfl⟩

theorem distinct_fill {g tag : AudienceTag} (foreign : tag ≠ g) (deadline : Instant)
    (jtis : List String) {s : JtiReplayStore}
    (distinct : (jtis.map fun jti => sha256 (utf8 jti)).Nodup)
    (absent : ∀ jti ∈ jtis, ∀ pair ∈ contents s, pair.1 ≠ JtiKey.new tag.asJtiKeyByte jti)
    (tagged : ∀ pair ∈ contents s, pair.1.audience = tag.asJtiKeyByte)
    (room : (contents s).card + jtis.length ≤ s.config.maxReplayEntries) :
    ∃ t, (∀ rest, results g s (jtis.map (fun jti => .tryInsert tag jti deadline) ++ rest) =
        results g t rest) ∧
      t.config = s.config ∧ (contents t).card = (contents s).card + jtis.length ∧
      ∀ pair ∈ contents t, pair.1.audience = tag.asJtiKeyByte := by
  induction jtis generalizing s with
  | nil => exact ⟨s,fun _ => rfl,rfl,rfl,tagged⟩
  | cons jti later ih =>
    obtain ⟨first,others⟩ := List.nodup_cons.mp distinct
    rw [List.length_cons] at room ⊢
    obtain ⟨grown,card⟩ := tryInsert_grows (absent jti List.mem_cons_self) (by omega) deadline
    have config : (ReplayStore.tryInsert s (JtiKey.new tag.asJtiKeyByte jti) deadline).2.config =
      s.config := tryInsert_config rfl
    obtain ⟨t,reached,same,filled,own⟩ := @ih
      (ReplayStore.tryInsert s (JtiKey.new tag.asJtiKeyByte jti) deadline).2 others
      (by
        intro other inside pair member
        rw [grown, Finset.mem_insert] at member
        rcases member with rfl | old
        · intro same
          have digests := congrArg JtiKey.jtiHash same
          exact first (List.mem_map.mpr ⟨other,inside,digests.symm⟩)
        · exact absent other (List.mem_cons_of_mem _ inside) pair old)
      (by
        intro pair member
        rw [grown, Finset.mem_insert] at member
        rcases member with rfl | old
        · rfl
        · exact tagged pair old)
      (by rw [card, config]; omega)
    refine ⟨t,?_,same.trans config,by rw [filled, card]; omega,own⟩
    intro rest
    rw [← reached rest, List.map_cons, List.cons_append]
    simp only [results, if_neg foreign]

theorem full_presses {g tag : AudienceTag} (foreign : tag ≠ g) {s : JtiReplayStore}
    (tagged : ∀ pair ∈ contents s, pair.1.audience = tag.asJtiKeyByte)
    (full : s.config.maxReplayEntries ≤ (contents s).card) (jti : String) (deadline : Instant) :
    results g s [.tryInsert g jti deadline] = [.error .memoryPressure] := by
  have refined := congrArg Prod.fst (tryInsert_refines s (JtiKey.new g.asJtiKeyByte jti) deadline)
  have absent : ¬ ∃ pair ∈ contents s, pair.1 = JtiKey.new g.asJtiKeyByte jti := by
    rintro ⟨pair,member,same⟩
    have bytes := tagged pair member
    rw [same] at bytes
    exact foreign (jtiKeyByte_injective bytes).symm
  unfold SeenMap.tryInsert at refined
  rw [if_neg absent, if_pos full] at refined
  dsimp only at refined
  simp only [results, if_true]
  rw [← refined]

def floodPartial : PartialConfig :=
  { samplePartial with auth := some ⟨none, none, none, none, none, none, some (.integer 1024)⟩ }

def flood : List Use :=
  ((List.range 1024).map identifier).map (fun jti => .tryInsert .vault jti 90) ++
    [.tryInsert .admin "jti" 90]

theorem identifiers_distinct :
    (((List.range 1024).map identifier).map fun jti => sha256 (utf8 jti)).Nodup := by
  rw [List.map_map]
  apply List.Nodup.map_on
  · intro i below j below' same
    exact identifier_digests (List.mem_range.mp below) (List.mem_range.mp below') same
  · exact List.nodup_range

theorem without_flood : without .vault flood = [.tryInsert .admin "jti" 90] := by
  unfold without flood
  rw [List.filter_append, List.filter_eq_nil_iff.mpr]
  · rfl
  · intro u member
    obtain ⟨jti,_,rfl⟩ := List.mem_map.mp member
    simp [Use.insertsFor]

theorem flood_config :
    ∃ cfg, validate samplePlatform.parsers samplePlatform.usizeMax floodPartial = .ok cfg ∧
      cfg.auth.maxReplayEntries = 1024 := by
  have evaluates : (validate samplePlatform.parsers samplePlatform.usizeMax floodPartial).toOption.any
      (fun cfg => decide (cfg.auth.maxReplayEntries = 1024)) = true := by decide +kernel
  obtain ⟨cfg,found,decided⟩ := (Option.any_eq_true _ _).mp evaluates
  exact ⟨cfg,toOption_some_iff.mp found,of_decide_eq_true decided⟩

theorem vault_fills_shared_store :
    ∃ cfg, validate samplePlatform.parsers samplePlatform.usizeMax floodPartial = .ok cfg ∧
      results .admin (JtiReplayStore.new cfg.auth) flood = [.error .memoryPressure] ∧
      results .admin (JtiReplayStore.new cfg.auth) (without .vault flood) = [.ok ()] := by
  obtain ⟨cfg,valid,least⟩ := flood_config
  have empty : contents (JtiReplayStore.new cfg.auth) = ∅ := new_contents cfg.auth
  refine ⟨cfg,valid,?_,?_⟩
  · obtain ⟨t,reached,same,filled,own⟩ := @distinct_fill .admin .vault (by decide) 90
      ((List.range 1024).map identifier) (JtiReplayStore.new cfg.auth) identifiers_distinct
      (by rw [empty]; exact fun _ _ _ member => absurd member (Finset.notMem_empty _))
      (by rw [empty]; exact fun _ member => absurd member (Finset.notMem_empty _))
      (by rw [empty, Finset.card_empty, List.length_map, List.length_range]; exact least.ge)
    unfold flood
    rw [reached]
    apply full_presses (by decide) own
    rw [filled, empty, Finset.card_empty, List.length_map, List.length_range, same]
    exact least.le
  · obtain ⟨t,inserted⟩ := @new_tryInsert cfg.auth (by rw [least]; decide)
      (JtiKey.new AudienceTag.admin.asJtiKeyByte "jti") 90
    rw [without_flood]
    simp only [results, if_true]
    rw [inserted]

end AudienceInterference
