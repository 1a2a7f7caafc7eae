import XcfFlatten.Color

/-!
# Networks that learn colours

A network of 256 neurons is shown the pixels of a picture one after the other. Each neuron stands at
a place in the space of colours with alpha. The neuron that wins a pixel moves towards it, and its
neighbours move along, by less and less while the lesson goes on. In the end the neurons stand where
the picture has its colours (`Network.learned`).

A neuron's bias sees to it that all of them win: the more pixels came closest to a neuron, the more
it is held back.
-/

namespace XcfFlatten

/-- A place in the space of colours with alpha, channel values between 0 and 255. -/
structure ColorPoint where
  red : Float
  green : Float
  blue : Float
  alpha : Float

namespace ColorPoint

/-- The place of a pixel. -/
def ofPixel (p : Pixel) : ColorPoint :=
  ⟨p.color.red.toFloat, p.color.green.toFloat, p.color.blue.toFloat, p.alpha.toFloat⟩

/-- The pixel nearest to a place. -/
def toPixel (place : ColorPoint) : Pixel :=
  ⟨⟨place.red.round.toUInt8, place.green.round.toUInt8, place.blue.round.toUInt8⟩,
    place.alpha.round.toUInt8⟩

/-- The place after a part of the way to another. -/
def toward (place goal : ColorPoint) (part : Float) : ColorPoint :=
  let move (value target : Float) : Float := value - part * (value - target)
  ⟨move place.red goal.red, move place.green goal.green, move place.blue goal.blue,
    move place.alpha goal.alpha⟩

end ColorPoint

/-- A neuron of a network. -/
structure Neuron where
  place : ColorPoint
  /-- The share of the pixels that came closest to the neuron, where the latest count most. -/
  share : Float
  /-- The head start that the neuron has when a pixel is to be won. -/
  bias : Float

namespace Neuron

/-- The neuron after any pixel: its share fades, and its head start grows by what is left of the
share. -/
def passed (neuron : Neuron) : Neuron :=
  let share := neuron.share - neuron.share / 1024
  { neuron with share, bias := neuron.bias + share }

/-- What the neuron closest to a pixel is credited on top. -/
def credited (neuron : Neuron) : Neuron :=
  { neuron with share := neuron.share + 1 / 1024, bias := neuron.bias - 1 }

/-- The neuron after a part of the way to a place. -/
def pulled (goal : ColorPoint) (part : Float) (neuron : Neuron) : Neuron :=
  { neuron with place := neuron.place.toward goal part }

end Neuron

/-- Who is closest to a pixel, and who wins it: who is closest after the head starts. -/
structure Contest where
  closest : Nat
  distance : Float
  winner : Nat
  /-- The winner's distance less its head start. -/
  lead : Float

namespace Contest

/-- A contest that any neuron would win. -/
def fresh : Contest := ⟨0, 1e308, 0, 1e308⟩

/-- Lets a neuron take part. Blue and red alone decide whether it has a chance. -/
def enter (goal : ColorPoint) (index : Nat) (neuron : Neuron) (contest : Contest) : Contest :=
  let place := neuron.place
  let coarse := (place.blue - goal.blue).abs + (place.red - goal.red).abs
  if coarse < contest.distance || coarse < contest.lead + neuron.bias then
    let distance := coarse + (place.green - goal.green).abs + (place.alpha - goal.alpha).abs
    let lead := distance - neuron.bias
    let contest :=
      if distance < contest.distance then { contest with closest := index, distance } else contest
    if lead < contest.lead then { contest with winner := index, lead } else contest
  else contest

end Contest

/-- Neurons in a row. -/
structure Network where
  neurons : Array Neuron

namespace Network

/-- How many neurons a network has. -/
def size : Nat := 256

/-- The network before it has seen anything: a gray of each level, the darkest of them with less
alpha. -/
def initial : Network where
  neurons := (Array.range size).map fun i =>
    let alpha := if i < 16 then (i * 16).toFloat else 255
    { place := ⟨i.toFloat, i.toFloat, i.toFloat, alpha⟩, share := 1 / size.toFloat, bias := 0 }

/-- The contest for a pixel. -/
def contest (network : Network) (goal : ColorPoint) : Contest :=
  Fin.foldl network.neurons.size (fun contest i => contest.enter goal i network.neurons[i])
    Contest.fresh

/-- Applies a function to one neuron. -/
def modify (network : Network) (index : Nat) (f : Neuron → Neuron) : Network :=
  ⟨network.neurons.modify index f⟩

/-- Pulls the two neurons at a distance along the row. The first neuron of the row is pulled by
none. -/
def pullPair (goal : ColorPoint) (part : Float) (center distance : Nat) (network : Network) :
    Network :=
  let network := network.modify (center + distance) (Neuron.pulled goal part)
  if distance < center then network.modify (center - distance) (Neuron.pulled goal part)
  else network

/-- Pulls the neurons around a winner, up to a radius: the farther they are along the row, the
less. -/
def pullAround (goal : ColorPoint) (part : Float) (winner radius : Nat) (network : Network) :
    Network :=
  let square := radius.toFloat * radius.toFloat
  (List.range (radius - 1)).foldl
    (fun network q =>
      let pulled := part * (square - q.toFloat * q.toFloat) / square
      pullPair goal pulled winner (q + 1) network)
    network

/-- Shows a pixel to a network: the winner moves a part of the way, and its neighbours with it. -/
def trained (goal : ColorPoint) (part : Float) (radius : Nat) (network : Network) : Network :=
  let contest := network.contest goal
  let network : Network := ⟨network.neurons.map Neuron.passed⟩
  let network := network.modify contest.closest Neuron.credited
  let network := network.modify contest.winner (Neuron.pulled goal part)
  network.pullAround goal part contest.winner radius

/-- A network in the middle of a lesson. -/
structure Lesson where
  network : Network
  /-- The part of the way that winners move, in fractions of 1024. -/
  rate : Nat
  /-- How far neighbours move along, in fractions of 64. -/
  reach : Nat

namespace Lesson

/-- Goes on with a pixel. -/
def next (lesson : Lesson) (p : Pixel) : Lesson :=
  { lesson with
    network :=
      lesson.network.trained (.ofPixel p) (lesson.rate.toFloat / 1024) (lesson.reach / 64) }

/-- Takes back the rate and the reach by a thirtieth. -/
def calm (lesson : Lesson) : Lesson :=
  { lesson with rate := lesson.rate - lesson.rate / 30, reach := lesson.reach - lesson.reach / 30 }

end Lesson

/-- How far apart pixels are that are shown one after the other: a number that leaves none out. -/
def stride (count : Nat) : Nat := ([499, 491, 478, 503].find? fun n => count % n ≠ 0).getD 503

/-- What a network learns of the given pixels. The lesson calms down about 128 times. -/
def learned (pixels : Array Pixel) : Network :=
  let count := pixels.size
  let phase := max 1 (count / (size / 2))
  let lesson := (List.range count).foldl
    (fun (lesson : Lesson) i =>
      let lesson := lesson.next (pixels.getD (i * stride count % count) default)
      if (i + 1) % phase = 0 then lesson.calm else lesson)
    ⟨initial, 1024, size / 8 * 64⟩
  lesson.network

end Network

end XcfFlatten
