/-! The RefSeq format. All numbers of more than one byte are little-endian.

    0   "RSEQ"
    4   version, 1
    5   flags; bit 0: the tracks keep time together
    6   ticks per quarter note, 2 bytes
    8   beats per minute at the start, 2 bytes
    10  number of tracks
    11  for each track its channel and, in 2 bytes, its start

A track is a stream of instructions, each an opcode byte and its operands. Only rests and
holds let time pass. -/
namespace Sequencer.RefSeq

def ident : List UInt8 := [0x52, 0x53, 0x45, 0x51]

def version : UInt8 := 1

def headerSize : Nat := 11

def pointerSize : Nat := 3

namespace Opcode

def trackEnd : UInt8 := 0x00
def rest : UInt8 := 0x01
def hold : UInt8 := 0x02
def noteOn : UInt8 := 0x10
def noteOff : UInt8 := 0x11
def note : UInt8 := 0x12
def octaveNote : UInt8 := 0x13
def octave : UInt8 := 0x14
def keyCorrection : UInt8 := 0x15
def drum : UInt8 := 0x16
def cut : UInt8 := 0x17
def volume : UInt8 := 0x20
def volumeSlide : UInt8 := 0x21
def pan : UInt8 := 0x22
def panSlide : UInt8 := 0x23
def expression : UInt8 := 0x24
def expressionSlide : UInt8 := 0x25
def masterLevel : UInt8 := 0x26
def masterSlide : UInt8 := 0x27
def program : UInt8 := 0x30
def bank : UInt8 := 0x31
def pitchBend : UInt8 := 0x32
def transpose : UInt8 := 0x33
def transposeAll : UInt8 := 0x34
def controller : UInt8 := 0x35
def bendRange : UInt8 := 0x36
def sustain : UInt8 := 0x37
def tempo : UInt8 := 0x40
def tempoSlide : UInt8 := 0x41
def timeSignature : UInt8 := 0x42
def marker : UInt8 := 0x43
def jump : UInt8 := 0x50
def call : UInt8 := 0x51
def ret : UInt8 := 0x52
def loopStart : UInt8 := 0x53
def loopEnd : UInt8 := 0x54
def loopForever : UInt8 := 0x55

end Opcode
end Sequencer.RefSeq
