import Drachtio.Config.CommandLine
import Drachtio.Lib.Run

/-! What a command line means: which ones the server starts with, and with which transports. An external address or a local
    network belongs to the contact before it, and all names in DNS belong to the last contact. -/

namespace Drachtio.Config

open Machine (Meets run)
open Sip (Text)
open Transport (NamedTransport)

/-! ### One option -/

/-- An option that is none of a contact is right by itself. -/
def Opt.Valid : Opt → Prop
  | .loglevel optarg => optarg ∈ Args.loglevels
  | .sofiaLoglevel optarg => 0 ≤ Numerals.atoi optarg ∧ Numerals.atoi optarg ≤ 9
  | .homer optarg =>
    (∃ address, optarg.splitOn ':' = [address]) ∨
      ∃ address port, optarg.splitOn ':' = [address, port] ∧ (lexicalCastUInt port).isSome = true
  | .homerId optarg => ∃ id, lexicalCastUInt optarg = some id ∧ id ≠ 0
  | .prometheusScrapePort optarg => (lexicalCastUInt (Args.prometheusPort optarg)).isSome = true
  | .userAgentOptionsAutoRespond => False
  | .exits => False
  | _ => True

/-- The transport of a contact with its network and address, if it can be made -/
def transportOf (contact localNet externalIp : Text) : Option NamedTransport :=
  if contact = [] then none else (NamedTransport.construct contact localNet externalIp).toOption

/-- There is no contact, or its transport can be made. -/
def Constructs (contact localNet externalIp : Text) : Prop :=
  contact = [] ∨ ∃ p, NamedTransport.construct contact localNet externalIp = .ok p

namespace Args

/-- The option can be taken. -/
def Takes (a : Args) : Opt → Prop
  | .contact _ => Constructs a.contact a.localNet a.publicAddress
  | .externalIp _ => a.contact ≠ [] ∧ a.publicAddress = []
  | .localNet _ => a.contact ≠ [] ∧ a.localNet = []
  | o => o.Valid

/-- What becomes of the variables when it is taken -/
def take (a : Args) : Opt → Args
  | .contact optarg =>
    { a with
      vecTransports := a.vecTransports ++ (transportOf a.contact a.localNet a.publicAddress).toList
      contact := optarg
      publicAddress := if a.contact = [] then a.publicAddress else []
      localNet := if a.contact = [] then a.localNet else [] }
  | .externalIp optarg => { a with publicAddress := optarg }
  | .localNet optarg => { a with localNet := optarg }
  | .dnsName optarg => { a with vecDnsNames := a.vecDnsNames ++ [optarg] }
  | .httpHandler optarg => { a with httpUrl := optarg }
  | .httpMethod optarg =>
    { a with httpMethod := if optarg.map Char.toUpper = "POST".toList then "POST".toList else a.httpMethod }
  | .homer optarg => { a with homerAddress := (optarg.splitOn ':').headD [] }
  | .homerId optarg => { a with homerId := (lexicalCastUInt optarg).getD 0 }
  | _ => a

variable {a a' : Args} {o : Opt} {opts : List Opt}

theorem ok_eq_ok_iff : (Except.ok a : Except Stop Args) = .ok a' ↔ a' = a := by rw [Except.ok.injEq, eq_comm]

theorem setHomer_iff {optarg : Text} :
    a.setHomer optarg = .ok a' ↔ (Opt.homer optarg).Valid ∧ a' = a.take (.homer optarg) := by
  unfold setHomer take Opt.Valid
  dsimp only
  generalize optarg.splitOn ':' = strs
  rcases strs with _ | ⟨address, _ | ⟨port, _ | ⟨x, xs⟩⟩⟩
  · simp
  · simp [eq_comm (b := a')]
  · by_cases hport : (lexicalCastUInt port).isSome = true <;> simp [hport, eq_comm (b := a')]
  · simp

theorem setHomerId_iff {optarg : Text} :
    a.setHomerId optarg = .ok a' ↔ (Opt.homerId optarg).Valid ∧ a' = a.take (.homerId optarg) := by
  unfold setHomerId take Opt.Valid
  dsimp only
  generalize lexicalCastUInt optarg = cast
  cases cast with
  | none => simp
  | some id => by_cases hid : id = 0 <;> simp [hid, eq_comm (b := a')]

/-- What the loop does with an option -/
theorem handle_eq_ok_iff (a : Args) (o : Opt) (a' : Args) : a.handle o = .ok a' ↔ a.Takes o ∧ a' = a.take o := by
  cases o with
  | contact optarg =>
    unfold handle Takes take Constructs transportOf pushContact
    by_cases hnone : a.contact = []
    · simp [hnone, eq_comm (b := a')]
    · cases NamedTransport.construct a.contact a.localNet a.publicAddress <;> simp [hnone, eq_comm (b := a'), Except.toOption]
  | externalIp optarg =>
    unfold handle Takes take
    by_cases hnone : a.contact = [] <;> by_cases hset : a.publicAddress = [] <;> simp [hnone, hset, eq_comm (b := a')]
  | localNet optarg =>
    unfold handle Takes take
    by_cases hnone : a.contact = [] <;> by_cases hset : a.localNet = [] <;> simp [hnone, hset, eq_comm (b := a')]
  | homer optarg => exact setHomer_iff
  | homerId optarg => exact setHomerId_iff
  | loglevel optarg =>
    unfold handle Takes take Opt.Valid
    by_cases hvalid : optarg ∈ loglevels <;> simp [hvalid, eq_comm (b := a')]
  | sofiaLoglevel optarg =>
    unfold handle Takes take Opt.Valid
    dsimp only
    by_cases hvalid : 0 ≤ Numerals.atoi optarg ∧ Numerals.atoi optarg ≤ 9
    · rw [if_pos hvalid, ok_eq_ok_iff]
      exact (and_iff_right hvalid).symm
    · rw [if_neg hvalid]
      exact iff_of_false nofun fun h => hvalid h.1
  | prometheusScrapePort optarg =>
    unfold handle Takes take Opt.Valid
    by_cases hvalid : (lexicalCastUInt (prometheusPort optarg)).isSome = true <;> simp [hvalid, eq_comm (b := a')]
  | userAgentOptionsAutoRespond => exact iff_of_false nofun fun h => h.1
  | exits => exact iff_of_false nofun fun h => h.1
  | dnsName optarg => exact ok_eq_ok_iff.trans (and_iff_right trivial).symm
  | httpHandler optarg => exact ok_eq_ok_iff.trans (and_iff_right trivial).symm
  | httpMethod optarg => exact ok_eq_ok_iff.trans (and_iff_right trivial).symm
  | other => exact ok_eq_ok_iff.trans (and_iff_right trivial).symm

end Args

/-! ### Contacts -/

/-- The options before the first contact, and each contact with the options up to the next one -/
def contactsOf : List Opt → List Opt × List (Text × List Opt)
  | [] => ([], [])
  | .contact optarg :: opts => ([], (optarg, (contactsOf opts).1) :: (contactsOf opts).2)
  | o :: opts => (o :: (contactsOf opts).1, (contactsOf opts).2)

def localNets (opts : List Opt) : List Text := opts.filterMap fun
  | .localNet optarg => some optarg
  | _ => none

def externalIps (opts : List Opt) : List Text := opts.filterMap fun
  | .externalIp optarg => some optarg
  | _ => none

def dnsNames (opts : List Opt) : List Text := opts.filterMap fun
  | .dnsName optarg => some optarg
  | _ => none

/-- A contact with what is given behind it, or no contact with what is given before the first one -/
structure Block where
  contact : Text
  localNets : List Text
  externalIps : List Text

/-- The one that counts is the last; none before it says anything. -/
def Single (given : List Text) : Prop := ∀ optarg ∈ given.dropLast, optarg = []

def lastOf (given : List Text) : Text := given.getLast?.getD []

namespace Block

/-- Nothing is given for no contact, and nothing twice for one. -/
structure Fits (b : Block) : Prop where
  orphan : b.contact = [] → b.localNets = [] ∧ b.externalIps = []
  localNets : Single b.localNets
  externalIps : Single b.externalIps

def Made (b : Block) : Prop := Constructs b.contact (lastOf b.localNets) (lastOf b.externalIps)

def transport (b : Block) : Option NamedTransport := transportOf b.contact (lastOf b.localNets) (lastOf b.externalIps)

def ofContact (c : Text × List Opt) : Block := ⟨c.1, Config.localNets c.2, Config.externalIps c.2⟩

end Block

/-- What a command line says of contacts, beginning with what it says of none -/
def blocks (opts : List Opt) : List Block := .ofContact ([], (contactsOf opts).1) :: (contactsOf opts).2.map .ofContact

theorem blocks_ne_nil (opts : List Opt) : blocks opts ≠ [] := List.cons_ne_nil _ _

/-! ### The loop -/

/-- What a variable holds of the options before -/
def held (x : Text) : List Text := if x = [] then [] else [x]

namespace Args

variable {a : Args} {o : Opt} {opts : List Opt}

/-- The block that the loop is in, with the options that are still to come -/
def block (a : Args) (opts : List Opt) : Block :=
  ⟨a.contact, held a.localNet ++ localNets opts, held a.publicAddress ++ externalIps opts⟩

def blocksFrom (a : Args) (opts : List Opt) : List Block := a.block (contactsOf opts).1 :: (contactsOf opts).2.map .ofContact

/-- Nothing is held for no contact. -/
def Neat (a : Args) : Prop := a.contact = [] → a.localNet = [] ∧ a.publicAddress = []

theorem single_held {x : Text} {given : List Text} : Single (held x ++ given) ↔ (x = [] ∧ Single given) ∨ given = [] := by
  unfold held
  by_cases hx : x = []
  · rw [if_pos hx, List.nil_append]
    constructor
    · exact fun h => Or.inl ⟨hx, h⟩
    · rintro (⟨-, h⟩ | rfl)
      · exact h
      · exact nofun
  · rw [if_neg hx, List.singleton_append]
    cases given with
    | nil => exact iff_of_true nofun (Or.inr rfl)
    | cons y given =>
      refine iff_of_false (fun h => hx (h x ?_)) (by simp [hx])
      rw [List.dropLast_cons_cons]
      exact List.mem_cons_self

theorem lastOf_held {x : Text} {given : List Text} : lastOf (held x ++ given) = given.getLast?.getD x := by
  unfold held lastOf
  by_cases hx : x = [] <;> cases hlast : given.getLast? <;> simp [hx, hlast, List.getLast?_cons]

theorem lastOf_held_cons {x y : Text} {given : List Text} : lastOf (held x ++ y :: given) = lastOf (held y ++ given) := by
  rw [lastOf_held, lastOf_held, List.getLast?_cons, Option.getD_some]

/-- A value is taken up when the variable is empty, and the same is then held of what is to come. -/
theorem single_held_cons {x y : Text} {given : List Text} :
    Single (held x ++ y :: given) ↔ x = [] ∧ Single (held y ++ given) := by
  rw [single_held, single_held]
  constructor
  · rintro (⟨hx, hsingle⟩ | h)
    · refine ⟨hx, ?_⟩
      cases given with
      | nil => exact Or.inr rfl
      | cons z given =>
        rw [Single, List.dropLast_cons_cons, List.forall_mem_cons] at hsingle
        exact Or.inl hsingle
    · exact nomatch h
  · rintro ⟨hx, ⟨hy, hsingle⟩ | rfl⟩
    · refine Or.inl ⟨hx, ?_⟩
      cases given with
      | nil => exact nofun
      | cons z given =>
        rw [Single, List.dropLast_cons_cons, List.forall_mem_cons]
        exact ⟨hy, hsingle⟩
    · exact Or.inl ⟨hx, nofun⟩

/-- An option that has nothing to do with a contact -/
structure Aside (a : Args) (o : Opt) : Prop where
  takes : a.Takes o ↔ o.Valid
  contact : (a.take o).contact = a.contact
  localNet : (a.take o).localNet = a.localNet
  publicAddress : (a.take o).publicAddress = a.publicAddress
  vecTransports : (a.take o).vecTransports = a.vecTransports
  localNets : ∀ opts, localNets (o :: opts) = Config.localNets opts
  externalIps : ∀ opts, externalIps (o :: opts) = Config.externalIps opts

theorem option_cases (a : Args) (o : Opt) :
    (∃ optarg, o = .contact optarg) ∨ (∃ optarg, o = .externalIp optarg) ∨ (∃ optarg, o = .localNet optarg) ∨ Aside a o := by
  cases o with
  | contact optarg => exact Or.inl ⟨optarg, rfl⟩
  | externalIp optarg => exact Or.inr (Or.inl ⟨optarg, rfl⟩)
  | localNet optarg => exact Or.inr (Or.inr (Or.inl ⟨optarg, rfl⟩))
  | _ => exact Or.inr (Or.inr (Or.inr ⟨Iff.rfl, rfl, rfl, rfl, rfl, fun _ => rfl, fun _ => rfl⟩))

theorem Neat.take (h : a.Neat) (htakes : a.Takes o) : (a.take o).Neat := by
  rcases option_cases a o with ⟨optarg, rfl⟩ | ⟨optarg, rfl⟩ | ⟨optarg, rfl⟩ | haside
  · intro _
    by_cases hnone : a.contact = []
    · obtain ⟨hnet, hip⟩ := h hnone
      exact ⟨by simp [Args.take, hnet], by simp [Args.take, hip]⟩
    · exact ⟨if_neg hnone, if_neg hnone⟩
  · exact fun hnone => absurd hnone htakes.1
  · exact fun hnone => absurd hnone htakes.1
  · unfold Neat
    rw [haside.contact, haside.localNet, haside.publicAddress]
    exact h

/-- A contact begins a block of its own. -/
theorem blocksFrom_contact (h : a.Neat) (optarg : Text) (opts : List Opt) :
    a.blocksFrom (.contact optarg :: opts) = a.block [] :: (a.take (.contact optarg)).blocksFrom opts := by
  have hnet : (a.take (.contact optarg)).localNet = [] := by
    by_cases hnone : a.contact = []
    · simp [Args.take, (h hnone).1]
    · exact if_neg hnone
  have hip : (a.take (.contact optarg)).publicAddress = [] := by
    by_cases hnone : a.contact = []
    · simp [Args.take, (h hnone).2]
    · exact if_neg hnone
  have hcontact : (a.take (.contact optarg)).contact = optarg := rfl
  unfold blocksFrom block
  rw [hnet, hip, hcontact]
  rfl

/-- Two blocks that come to the same transport -/
structure Alike (b b' : Block) : Prop where
  contact : b.contact = b'.contact
  localNet : lastOf b.localNets = lastOf b'.localNets
  externalIp : lastOf b.externalIps = lastOf b'.externalIps

theorem fits_iff (h : a.contact ≠ []) (opts : List Opt) : (a.block opts).Fits ↔
    Single (held a.localNet ++ localNets opts) ∧ Single (held a.publicAddress ++ externalIps opts) :=
  ⟨fun hfits => ⟨hfits.localNets, hfits.externalIps⟩, fun hsingle => ⟨fun hnone => absurd hnone h, hsingle.1, hsingle.2⟩⟩

/-- Any other option changes the block that the loop is in. The block is right with what is to come just when the option
    can be taken and what it leaves is right with the rest, and the transport is the same. -/
theorem block_cons (hnot : ∀ optarg, o ≠ .contact optarg) (opts : List Opt) :
    ((a.Takes o ∧ ((a.take o).block opts).Fits) ↔ o.Valid ∧ (a.block (o :: opts)).Fits) ∧
      Alike ((a.take o).block opts) (a.block (o :: opts)) := by
  rcases option_cases a o with ⟨optarg, rfl⟩ | ⟨optarg, rfl⟩ | ⟨optarg, rfl⟩ | haside
  · exact absurd rfl (hnot optarg)
  · refine ⟨?_, rfl, rfl, lastOf_held_cons.symm⟩
    constructor
    · rintro ⟨⟨hcontact, hempty⟩, hfits⟩
      obtain ⟨hnet, hip⟩ := (fits_iff (a := a.take (.externalIp optarg)) hcontact opts).mp hfits
      exact ⟨trivial, (fits_iff hcontact _).mpr ⟨hnet, single_held_cons.mpr ⟨hempty, hip⟩⟩⟩
    · rintro ⟨-, hfits⟩
      have hcontact : a.contact ≠ [] := fun hnone => by simpa [block, externalIps] using (hfits.orphan hnone).2
      obtain ⟨hempty, hip⟩ := single_held_cons.mp hfits.externalIps
      exact ⟨⟨hcontact, hempty⟩, (fits_iff (a := a.take (.externalIp optarg)) hcontact opts).mpr ⟨hfits.localNets, hip⟩⟩
  · refine ⟨?_, rfl, lastOf_held_cons.symm, rfl⟩
    constructor
    · rintro ⟨⟨hcontact, hempty⟩, hfits⟩
      obtain ⟨hnet, hip⟩ := (fits_iff (a := a.take (.localNet optarg)) hcontact opts).mp hfits
      exact ⟨trivial, (fits_iff hcontact _).mpr ⟨single_held_cons.mpr ⟨hempty, hnet⟩, hip⟩⟩
    · rintro ⟨-, hfits⟩
      have hcontact : a.contact ≠ [] := fun hnone => by simpa [block, localNets] using (hfits.orphan hnone).1
      obtain ⟨hempty, hnet⟩ := single_held_cons.mp hfits.localNets
      exact ⟨⟨hcontact, hempty⟩, (fits_iff (a := a.take (.localNet optarg)) hcontact opts).mpr ⟨hnet, hfits.externalIps⟩⟩
  · have hsame : (a.take o).block opts = a.block (o :: opts) := by
      unfold block
      rw [haside.contact, haside.localNet, haside.publicAddress, haside.localNets, haside.externalIps]
    rw [hsame, haside.takes]
    exact ⟨Iff.rfl, rfl, rfl, rfl⟩

theorem Alike.made_iff {b b' : Block} (h : Alike b b') : b.Made ↔ b'.Made := by
  unfold Block.Made
  rw [h.contact, h.localNet, h.externalIp]

theorem Alike.transport_eq {b b' : Block} (h : Alike b b') : b.transport = b'.transport := by
  unfold Block.transport
  rw [h.contact, h.localNet, h.externalIp]

theorem Alike.trans {b b' b'' : Block} (h : Alike b b') (h' : Alike b' b'') : Alike b b'' :=
  ⟨h.contact.trans h'.contact, h.localNet.trans h'.localNet, h.externalIp.trans h'.externalIp⟩

/-- It makes no difference to the transports which of two like blocks is in front of others. -/
theorem Alike.front {b b' : Block} (h : Alike b b') (bs : List Block) :
    ((∀ x ∈ (b :: bs).dropLast, x.Made) ↔ ∀ x ∈ (b' :: bs).dropLast, x.Made) ∧
      (b :: bs).dropLast.filterMap Block.transport = (b' :: bs).dropLast.filterMap Block.transport ∧
      Alike ((b :: bs).getLast (List.cons_ne_nil _ _)) ((b' :: bs).getLast (List.cons_ne_nil _ _)) := by
  cases bs with
  | nil => exact ⟨Iff.rfl, rfl, h⟩
  | cons c bs =>
    refine ⟨?_, ?_, rfl, rfl, rfl⟩
    · rw [List.dropLast_cons_cons, List.dropLast_cons_cons, List.forall_mem_cons, List.forall_mem_cons, h.made_iff]
    · rw [List.dropLast_cons_cons, List.dropLast_cons_cons, List.filterMap_cons, List.filterMap_cons, h.transport_eq]

theorem contactsOf_cons (hnot : ∀ optarg, o ≠ .contact optarg) (opts : List Opt) :
    contactsOf (o :: opts) = (o :: (contactsOf opts).1, (contactsOf opts).2) := by
  cases o with
  | contact optarg => exact absurd rfl (hnot optarg)
  | _ => rfl

theorem blocksFrom_cons (hnot : ∀ optarg, o ≠ .contact optarg) (opts : List Opt) :
    a.blocksFrom (o :: opts) = a.block (o :: (contactsOf opts).1) :: (contactsOf opts).2.map .ofContact := by
  unfold blocksFrom
  rw [contactsOf_cons hnot]

theorem lastOf_held_nil {x : Text} : lastOf (held x ++ []) = x := lastOf_held

theorem single_held_nil {x : Text} : Single (held x ++ []) := single_held.mpr (Or.inr rfl)

theorem block_nil (h : a.Neat) : (a.block []).Fits ∧ ((a.block []).Made ↔ Constructs a.contact a.localNet a.publicAddress) ∧
    (a.block []).transport = transportOf a.contact a.localNet a.publicAddress := by
  have hnet : lastOf (a.block []).localNets = a.localNet := lastOf_held_nil
  have hip : lastOf (a.block []).externalIps = a.publicAddress := lastOf_held_nil
  refine ⟨⟨fun hnone => ?_, single_held_nil, single_held_nil⟩, ?_, ?_⟩
  · obtain ⟨hnet, hip⟩ := h hnone
    unfold block held
    rw [hnet, hip]
    exact ⟨rfl, rfl⟩
  · unfold Block.Made
    rw [hnet, hip]
    rfl
  · unfold Block.transport
    rw [hnet, hip]
    rfl

theorem blocksFrom_ne_nil : a.blocksFrom opts ≠ [] := List.cons_ne_nil _ _

/-- The loop comes through just when every option is right by itself, every block is, and of every contact but the last a
    transport can be made. -/
theorem meets_iff (h : a.Neat) : Meets take Takes a opts ↔ (∀ o ∈ opts, o.Valid) ∧ (∀ b ∈ a.blocksFrom opts, b.Fits) ∧
    ∀ b ∈ (a.blocksFrom opts).dropLast, b.Made := by
  induction opts generalizing a with
  | nil => exact iff_of_true trivial ⟨nofun, List.forall_mem_singleton.mpr (block_nil h).1, nofun⟩
  | cons o opts ih =>
    rw [Machine.meets_cons, List.forall_mem_cons]
    by_cases hcontact : ∃ optarg, o = .contact optarg
    · obtain ⟨optarg, rfl⟩ := hcontact
      obtain ⟨hfits, hmade, -⟩ := block_nil h
      rw [blocksFrom_contact h, List.forall_mem_cons, List.dropLast_cons_of_ne_nil blocksFrom_ne_nil,
        List.forall_mem_cons, hmade]
      constructor
      · rintro ⟨htakes, hrest⟩
        obtain ⟨hvalid, hblocks, hmadeRest⟩ := (ih (h.take htakes)).mp hrest
        exact ⟨⟨trivial, hvalid⟩, ⟨hfits, hblocks⟩, htakes, hmadeRest⟩
      · rintro ⟨⟨-, hvalid⟩, ⟨-, hblocks⟩, hconstructs, hmadeRest⟩
        have htakes : a.Takes (.contact optarg) := hconstructs
        exact ⟨htakes, (ih (h.take htakes)).mpr ⟨hvalid, hblocks, hmadeRest⟩⟩
    · have hnot : ∀ optarg, o ≠ .contact optarg := fun optarg heq => hcontact ⟨optarg, heq⟩
      obtain ⟨hiff, halike⟩ := block_cons (a := a) hnot (contactsOf opts).1
      have hblocks := blocksFrom_cons (a := a) hnot opts
      have hmade : (∀ b ∈ ((a.take o).blocksFrom opts).dropLast, b.Made) ↔
          ∀ b ∈ (a.blocksFrom (o :: opts)).dropLast, b.Made :=
        hblocks ▸ (halike.front _).1
      rw [← hmade, hblocks, List.forall_mem_cons]
      constructor
      · rintro ⟨htakes, hrest⟩
        obtain ⟨hvalid, hfits, hmadeRest⟩ := (ih (h.take htakes)).mp hrest
        obtain ⟨hfirst, hothers⟩ := List.forall_mem_cons.mp hfits
        obtain ⟨hvalidFirst, hfitsFirst⟩ := hiff.mp ⟨htakes, hfirst⟩
        exact ⟨⟨hvalidFirst, hvalid⟩, ⟨hfitsFirst, hothers⟩, hmadeRest⟩
      · rintro ⟨⟨hvalidFirst, hvalid⟩, ⟨hfitsFirst, hothers⟩, hmadeRest⟩
        obtain ⟨htakes, hfirst⟩ := hiff.mpr ⟨hvalidFirst, hfitsFirst⟩
        exact ⟨htakes, (ih (h.take htakes)).mpr ⟨hvalid, List.forall_mem_cons.mpr ⟨hfirst, hothers⟩, hmadeRest⟩⟩

/-- What the loop has made of the blocks behind it, and what it holds of the last one -/
theorem run_blocks (h : a.Neat) (hmeets : Meets take Takes a opts) :
    (run take a opts).vecTransports = a.vecTransports ++ (a.blocksFrom opts).dropLast.filterMap Block.transport ∧
      (run take a opts).Neat ∧ Alike ((run take a opts).block []) ((a.blocksFrom opts).getLast blocksFrom_ne_nil) := by
  induction opts generalizing a with
  | nil => exact ⟨(List.append_nil _).symm, h, rfl, rfl, rfl⟩
  | cons o opts ih =>
    obtain ⟨htakes, hrest⟩ := hmeets
    obtain ⟨htransports, hneat, hlast⟩ := ih (h.take htakes) hrest
    rw [Machine.run_cons]
    by_cases hcontact : ∃ optarg, o = .contact optarg
    · obtain ⟨optarg, rfl⟩ := hcontact
      obtain ⟨-, -, htransport⟩ := block_nil h
      have hblocks := blocksFrom_contact h optarg opts
      refine ⟨?_, hneat, ?_⟩
      · rw [htransports, hblocks, List.dropLast_cons_of_ne_nil blocksFrom_ne_nil]
        have hcons : (a.block [] :: ((a.take (.contact optarg)).blocksFrom opts).dropLast).filterMap Block.transport =
            (a.block []).transport.toList ++ ((a.take (.contact optarg)).blocksFrom opts).dropLast.filterMap
            Block.transport := by
          rw [List.filterMap_cons]
          cases (a.block []).transport <;> rfl
        rw [hcons, htransport, ← List.append_assoc]
        rfl
      · have heq : (a.blocksFrom (.contact optarg :: opts)).getLast blocksFrom_ne_nil =
            ((a.take (.contact optarg)).blocksFrom opts).getLast blocksFrom_ne_nil := by
          simp only [hblocks, List.getLast_cons blocksFrom_ne_nil]
        rw [heq]
        exact hlast
    · have hnot : ∀ optarg, o ≠ .contact optarg := fun optarg heq => hcontact ⟨optarg, heq⟩
      obtain ⟨-, halike⟩ := block_cons (a := a) hnot (contactsOf opts).1
      have hsame : (a.take o).vecTransports = a.vecTransports := by
        rcases option_cases a o with ⟨optarg, rfl⟩ | ⟨optarg, rfl⟩ | ⟨optarg, rfl⟩ | haside
        · exact absurd rfl (hnot optarg)
        · rfl
        · rfl
        · exact haside.vecTransports
      have hblocks := blocksFrom_cons (a := a) hnot opts
      obtain ⟨-, hfront, hlike⟩ := halike.front ((contactsOf opts).2.map .ofContact)
      refine ⟨?_, hneat, ?_⟩
      · rw [htransports, hsame, hblocks]
        exact congrArg (a.vecTransports ++ ·) hfront
      · simp only [hblocks]
        exact hlast.trans hlike

theorem run_vecDnsNames : (run take a opts).vecDnsNames = a.vecDnsNames ++ dnsNames opts := by
  induction opts generalizing a with
  | nil => exact (List.append_nil _).symm
  | cons o opts ih =>
    rw [Machine.run_cons, ih]
    cases o with
    | dnsName optarg =>
      change a.vecDnsNames ++ [optarg] ++ _ = a.vecDnsNames ++ optarg :: _
      rw [List.append_assoc, List.singleton_append]
      rfl
    | _ => rfl

end Args

/-! ### The end -/

/-- The address of Homer that the options leave, and the agent id -/
def homerAddressOf (homerAddress : Text) (opts : List Opt) : Text :=
  (opts.filterMap fun
    | .homer optarg => some ((optarg.splitOn ':').headD [])
    | _ => none).getLast?.getD homerAddress

def homerIdOf (homerId : UInt32) (opts : List Opt) : UInt32 :=
  (opts.filterMap fun
    | .homerId optarg => some ((lexicalCastUInt optarg).getD 0)
    | _ => none).getLast?.getD homerId

theorem run_homer (a : Args) (opts : List Opt) : (run Args.take a opts).homerAddress = homerAddressOf a.homerAddress opts ∧
    (run Args.take a opts).homerId = homerIdOf a.homerId opts := by
  induction opts generalizing a with
  | nil => exact ⟨rfl, rfl⟩
  | cons o opts ih =>
    obtain ⟨haddress, hid⟩ := ih (a.take o)
    rw [Machine.run_cons, haddress, hid]
    cases o with
    | homer optarg => exact ⟨by simp [homerAddressOf, Args.take, List.getLast?_cons], rfl⟩
    | homerId optarg => exact ⟨rfl, by simp [homerIdOf, Args.take, List.getLast?_cons]⟩
    | _ => exact ⟨rfl, rfl⟩

/-- The command lines that the server starts with -/
structure Readable (homerAddress : Text) (homerId : UInt32) (opts : List Opt) : Prop where
  valid : ∀ o ∈ opts, o.Valid
  fits : ∀ b ∈ blocks opts, b.Fits
  made : ∀ b ∈ blocks opts, b.Made
  homer : homerAddressOf homerAddress opts ≠ [] → homerIdOf homerId opts ≠ 0

/-- A transport with all the names of a command line -/
def withNames (opts : List Opt) (p : NamedTransport) : NamedTransport := { p with dnsNames := p.dnsNames ++ dnsNames opts }

/-- The transports that a command line asks for -/
def transportsOf (opts : List Opt) : List NamedTransport :=
  (blocks opts).dropLast.filterMap Block.transport ++
    ((blocks opts).getLast (blocks_ne_nil opts)).transport.toList.map (withNames opts)

theorem addNames_eq (names : List Text) (p : NamedTransport) :
    names.foldl (fun p name => p.addDnsName name) p = { p with dnsNames := p.dnsNames ++ names } := by
  induction names generalizing p with
  | nil => simp
  | cons name names ih =>
    rw [List.foldl_cons, ih]
    simp [NamedTransport.addDnsName]

theorem finish_iff (a a' : Args) : a.finish = .ok a' ↔ (a.homerAddress ≠ [] → a.homerId ≠ 0) ∧
    Constructs a.contact a.localNet a.publicAddress ∧ a' = { a with
      vecTransports := a.vecTransports ++ (transportOf a.contact a.localNet a.publicAddress).toList.map a.addNames } := by
  unfold Args.finish Constructs transportOf
  by_cases hhomer : a.homerAddress ≠ [] ∧ a.homerId = 0
  · rw [if_pos hhomer]
    exact iff_of_false nofun fun h => h.1 hhomer.1 hhomer.2
  · rw [if_neg hhomer]
    have hgiven : a.homerAddress ≠ [] → a.homerId ≠ 0 := fun haddress hid => hhomer ⟨haddress, hid⟩
    rw [and_iff_right hgiven]
    by_cases hnone : a.contact = []
    · have hsame : { a with vecTransports := a.vecTransports ++ [] } = a := by rw [List.append_nil]
      rw [if_pos hnone, if_pos hnone, Option.toList_none, List.map_nil, hsame]
      exact Args.ok_eq_ok_iff.trans (and_iff_right (Or.inl hnone)).symm
    · cases NamedTransport.construct a.contact a.localNet a.publicAddress <;>
        simp [hnone, eq_comm (b := a'), Except.toOption]

theorem neat_init (homerAddress : Text) (homerId : UInt32) : (Args.init homerAddress homerId).Neat := fun _ => ⟨rfl, rfl⟩

/-- The last block is that of the contact which is complete at the end of the loop. -/
theorem made_iff (opts : List Opt) : (∀ b ∈ blocks opts, b.Made) ↔
    (∀ b ∈ (blocks opts).dropLast, b.Made) ∧ ((blocks opts).getLast (blocks_ne_nil opts)).Made := by
  have hsplit := List.dropLast_append_getLast (blocks_ne_nil opts)
  have hmem (x : Block) : x ∈ blocks opts ↔ x ∈ (blocks opts).dropLast ∨ x = (blocks opts).getLast (blocks_ne_nil opts) := by
    rw [← List.mem_singleton, ← List.mem_append, hsplit]
  constructor
  · exact fun h => ⟨fun x hx => h x ((hmem x).mpr (Or.inl hx)), h _ ((hmem _).mpr (Or.inr rfl))⟩
  · rintro ⟨hfront, hlast⟩ x hx
    rcases (hmem x).mp hx with hx | rfl
    · exact hfront x hx
    · exact hlast

theorem parseCmdArgs_iff (homerAddress : Text) (homerId : UInt32) (opts : List Opt) (r : Args) :
    parseCmdArgs homerAddress homerId opts = .ok r ↔ Meets Args.take Args.Takes (Args.init homerAddress homerId) opts ∧
      (run Args.take (Args.init homerAddress homerId) opts).finish = .ok r := by
  have hfold (a : Args) : opts.foldlM Args.handle (Args.init homerAddress homerId) = .ok a ↔ _ :=
    Machine.foldlM_eq_ok_iff Args.handle_eq_ok_iff
  unfold parseCmdArgs
  constructor
  · intro h
    cases hrun : opts.foldlM Args.handle (Args.init homerAddress homerId) with
    | error e => rw [hrun] at h; exact nomatch h
    | ok a =>
      obtain ⟨hmeets, rfl⟩ := (hfold a).mp hrun
      rw [hrun] at h
      exact ⟨hmeets, h⟩
  · rintro ⟨hmeets, h⟩
    rw [(hfold _).mpr ⟨hmeets, rfl⟩]
    exact h

/-- The readable command lines are those that are taken to the end. -/
theorem readable_iff (homerAddress : Text) (homerId : UInt32) (opts : List Opt) :
    Readable homerAddress homerId opts ↔ ∃ r, parseCmdArgs homerAddress homerId opts = .ok r := by
  have hneat := neat_init homerAddress homerId
  obtain ⟨haddress, hid⟩ := run_homer (Args.init homerAddress homerId) opts
  have hlast (hmeets : Meets Args.take Args.Takes (Args.init homerAddress homerId) opts) :
      ((blocks opts).getLast (blocks_ne_nil opts)).Made ↔
        let a := run Args.take (Args.init homerAddress homerId) opts
        Constructs a.contact a.localNet a.publicAddress := by
    obtain ⟨-, hend, halike⟩ := Args.run_blocks hneat hmeets
    exact halike.made_iff.symm.trans (Args.block_nil hend).2.1
  constructor
  · intro h
    have hmeets := (Args.meets_iff hneat).mpr ⟨h.valid, h.fits, ((made_iff opts).mp h.made).1⟩
    have hfinish := (finish_iff _ _).mpr ⟨haddress ▸ hid ▸ h.homer, (hlast hmeets).mp ((made_iff opts).mp h.made).2, rfl⟩
    exact ⟨_, (parseCmdArgs_iff _ _ _ _).mpr ⟨hmeets, hfinish⟩⟩
  · rintro ⟨r, hr⟩
    obtain ⟨hmeets, hfinish⟩ := (parseCmdArgs_iff _ _ _ _).mp hr
    obtain ⟨hvalid, hfits, hmade⟩ := (Args.meets_iff hneat).mp hmeets
    obtain ⟨hhomer, hconstructs, -⟩ := (finish_iff _ _).mp hfinish
    rw [haddress, hid] at hhomer
    exact ⟨hvalid, hfits, (made_iff opts).mpr ⟨hmade, (hlast hmeets).mpr hconstructs⟩, hhomer⟩

theorem parseCmdArgs_transports {homerAddress : Text} {homerId : UInt32} {opts : List Opt} {r : Args}
    (h : parseCmdArgs homerAddress homerId opts = .ok r) : r.vecTransports = transportsOf opts := by
  obtain ⟨hmeets, hfinish⟩ := (parseCmdArgs_iff _ _ _ _).mp h
  obtain ⟨htransports, hend, halike⟩ := Args.run_blocks (neat_init homerAddress homerId) hmeets
  obtain ⟨-, -, rfl⟩ := (finish_iff _ _).mp hfinish
  have hlast : ((blocks opts).getLast (blocks_ne_nil opts)).transport = transportOf _ _ _ :=
    halike.transport_eq.symm.trans (Args.block_nil hend).2.2
  have hnames : (run Args.take (Args.init homerAddress homerId) opts).addNames = withNames opts := by
    funext p
    rw [Args.addNames, addNames_eq, Args.run_vecDnsNames]
    rfl
  unfold transportsOf
  rw [hlast, ← hnames]
  exact congrArg (· ++ _) htransports

open Classical in
/-- What a command line means: the server starts with the readable ones, and its transports are those of the contacts in their
    order, each with the network and the address given between it and the next; the names are those of the last. -/
theorem command_line_read (homerAddress : Text) (homerId : UInt32) (opts : List Opt) :
    (parseCmdArgs homerAddress homerId opts).toOption.map Args.vecTransports =
      if Readable homerAddress homerId opts then some (transportsOf opts) else none := by
  split
  · rename_i hreadable
    obtain ⟨r, hr⟩ := (readable_iff _ _ _).mp hreadable
    rw [hr]
    exact congrArg some (parseCmdArgs_transports hr)
  · rename_i hreadable
    cases hr : parseCmdArgs homerAddress homerId opts with
    | error e => rfl
    | ok r => exact absurd ((readable_iff _ _ _).mpr ⟨r, hr⟩) hreadable

end Drachtio.Config
