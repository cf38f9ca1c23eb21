import ChipEight.Random.Basic

/-!
# The seeded source

The Mersenne Twister of period `2 ^ 19937 - 1`, seeded from an array of 32-bit words. A random byte
is made of the nine leading bits of an output; results above 255 are drawn again.
-/

namespace ChipEight.Random

/-- The 624 words of the generator, and how many of them were already handed out. -/
structure Twister where
  state : Vector UInt32 624
  used : Nat

namespace Twister

/-- Shifts the two leading bits of a word into its low end. -/
def scramble (w : UInt32) : UInt32 := w ^^^ (w >>> 30)

/-- A state under construction and the word that was put into it last. -/
structure Filling where
  state : Vector UInt32 624
  last : UInt32

def Filling.put (f : Filling) (i : Fin 624) (w : UInt32) : Filling := ⟨f.state.set i w, w⟩

/-- A state filled from one word. Place 0, which holds it, counts as the last one put. -/
def fill (seed : UInt32) : Filling :=
  let full := (List.finRange 624).tail.foldl
    (fun (f : Filling) (i : Fin 624) =>
      f.put i (1812433253 * scramble f.last + i.val.toUInt32))
    ⟨Vector.replicate 624 seed, seed⟩
  ⟨full.state, seed⟩

/-- The place of step `k` on the circle of the places 1 to 623. -/
def place (k : Nat) : Fin 624 := Fin.ofNat 624 (k % 623 + 1)

/-- A state seeded from an array of words. -/
def ofKey (key : List UInt32) : Twister :=
  let rounds := max 624 key.length
  let keyed := (List.range rounds).foldl
    (fun (f : Filling) (k : Nat) =>
      let j := k % key.length
      f.put (place k) ((f.state.get (place k) ^^^ (scramble f.last * 1664525)) + key.getD j 0 + j.toUInt32))
    (fill 19650218)
  let mixed := (List.range 623).foldl
    (fun (f : Filling) (k : Nat) =>
      let i := place (rounds + k)
      f.put i ((f.state.get i ^^^ (scramble f.last * 1566083941)) - i.val.toUInt32))
    keyed
  ⟨mixed.state.set 0 0x80000000, 624⟩

/-- The 32-bit words of a number, the least significant one first. -/
def limbs (n : Nat) : List UInt32 :=
  if n < UInt32.size then [n.toUInt32] else n.toUInt32 :: limbs (n / UInt32.size)
termination_by n
decreasing_by
  simp only [UInt32.size] at *
  omega

/-- The generator of a seed, whose sign does not matter. -/
def ofSeed (seed : Int) : Twister := ofKey (limbs seed.natAbs)

/-- The next 624 words. -/
def regenerate (state : Vector UInt32 624) : Vector UInt32 624 :=
  (List.finRange 624).foldl (fun (s : Vector UInt32 624) (i : Fin 624) =>
    let joined := (s.get i &&& 0x80000000) ||| (s.get (i + 1) &&& 0x7fffffff)
    let twist : UInt32 := if joined &&& 1 = 0 then 0 else 0x9908b0df
    s.set i (s.get (i + 397) ^^^ (joined >>> 1) ^^^ twist)) state

def temper (w : UInt32) : UInt32 :=
  let w := w ^^^ (w >>> 11)
  let w := w ^^^ ((w <<< 7) &&& 0x9d2c5680)
  let w := w ^^^ ((w <<< 15) &&& 0xefc60000)
  w ^^^ (w >>> 18)

def next (t : Twister) : UInt32 × Twister :=
  let t := if t.used < 624 then t else ⟨regenerate t.state, 0⟩
  (temper (t.state.getD t.used 0), { t with used := t.used + 1 })

/-- A byte, in at most `tries + 1` outputs; the last one is taken modulo 256. -/
def byteWithin : Nat → Twister → Nat × Twister
  | 0, t =>
    let (w, t) := t.next
    ((w >>> 23).toNat % 256, t)
  | tries + 1, t =>
    let (w, t) := t.next
    let r := (w >>> 23).toNat
    if r < 256 then (r, t) else byteWithin tries t

/-- A random byte. The generator never puts out more than 19937 words with a leading one in a row,
so that the bound on the tries is not reached. -/
def byte (t : Twister) : Nat × Twister := byteWithin 19937 t

instance : RandomSource Twister where
  draw t :=
    let (r, t) := t.byte
    (.ok r, t)

end Twister
end ChipEight.Random
