import Zcu102.Sim.Bytes
import Zcu102.Sim.Network

/-!
# The check sequence

The MAC computes the check sequence of a frame with eight unrolled networks, for one to
eight bytes at a time (`crc1B` to `crc8B` in `xgmii_includes.vh`), each output bit an
exclusive or written out by hand. The plain meaning is a division register fed bit by
bit, the lowest bit of each byte first; every network is that register after as many
bytes (`crc8B_eq` and the others).
-/

namespace Zcu102.Nfmac
set_option autoImplicit false
open Zcu102.Sim Zcu102.Sim.Term

abbrev Byte := BitVec 8

/-- The generator of IEEE 802.3, without its highest power. -/
def generator8023 : BitVec 32 := 0x04c11db7#32

def crc8023Preset : BitVec 32 := 0xffffffff#32

/-! ## The networks -/

def crc8BTerms : List (List Term) := [
  [d 15, c 12, d 63, d 47, d 39, d 5, d 32, c 28, d 16, c 21, c 13, c 0, d 33, c 29, c 22, d 10, d 57, d 34, d 0,
   d 26, c 31, d 18, c 23, c 15, d 51, c 2, d 8, d 35, d 19, c 16, d 9, d 2, d 13, d 53, d 37, d 3, d 29, c 26,
   c 18, d 54, c 5, d 38, d 31],
  [c 27, c 19, c 12, d 63, c 6, d 47, d 39, d 5, c 28, d 16, c 21, d 56, d 25, c 30, d 17, d 10, c 14, d 57, d 50,
   c 1, d 7, d 0, d 26, c 31, c 15, d 51, c 2, d 35, d 1, d 19, d 12, c 24, d 52, c 3, d 36, d 28, d 13, c 17, d 3,
   d 30, d 29, c 26, d 14, c 18, d 62, d 54, c 5, d 46, d 4],
  [c 27, c 19, c 20, c 12, d 63, d 55, c 6, d 47, d 39, d 5, d 32, d 24, c 21, d 56, c 7, c 0, d 33, d 6, d 25,
   d 10, d 57, d 50, d 49, d 26, d 11, c 23, d 8, d 27, d 19, d 12, c 3, d 28, c 25, d 61, d 45, c 4, d 37, c 26,
   d 62, d 54, c 5, d 46, d 4, d 31],
  [d 23, c 27, c 20, d 55, c 6, d 32, d 5, d 24, c 28, c 21, c 13, d 56, c 7, d 48, c 0, d 25, d 10, c 22, c 8,
   d 49, c 1, d 7, d 26, d 18, d 11, d 27, c 24, d 60, d 44, d 9, d 36, d 61, d 53, c 4, d 45, d 3, d 30, c 26,
   d 62, d 54, c 5, d 46, d 38, d 4, d 31],
  [d 23, d 15, c 27, c 12, d 63, d 55, c 6, d 39, d 5, d 32, d 24, d 16, c 13, c 7, d 48, d 33, d 6, d 25, d 17,
   c 14, d 57, c 8, c 1, d 34, d 0, c 31, d 18, c 15, d 51, c 9, d 43, d 19, c 16, d 60, d 59, d 52, d 44, c 25,
   d 13, d 61, d 45, d 30, d 22, c 26, c 18, d 38, d 4],
  [d 23, c 27, c 19, c 12, d 63, d 39, d 24, c 21, d 56, c 7, c 29, d 17, c 22, d 10, c 14, d 57, c 8, d 50, d 42,
   d 34, d 0, d 26, c 31, c 23, d 58, c 9, d 43, d 8, d 35, d 19, d 12, d 60, d 59, d 44, d 9, d 2, d 21, d 13,
   c 17, c 10, d 53, d 22, d 14, c 18, d 62, c 5, d 4],
  [d 23, c 20, c 19, d 55, c 6, d 16, c 28, c 13, d 56, d 41, d 33, d 25, c 30, c 22, d 57, c 8, d 49, d 42, d 7,
   d 34, d 18, c 23, d 11, c 15, d 58, c 9, d 43, d 8, d 1, d 20, c 24, d 12, d 59, d 52, d 9, d 21, d 13, c 10,
   d 61, d 3, d 22, c 18, c 11, d 62, d 38],
  [c 19, c 20, d 63, d 55, d 47, d 39, d 40, d 5, d 24, c 28, d 16, c 13, d 56, c 7, d 48, d 41, c 0, d 6, d 17,
   c 22, c 14, d 42, d 7, d 34, d 26, d 18, d 11, c 15, d 58, c 9, c 2, d 35, d 20, d 12, c 24, d 60, d 9, d 21,
   c 25, d 13, c 10, d 61, d 53, d 3, d 29, d 22, c 26, c 18, c 11, c 5, d 38, d 31],
  [d 23, c 27, c 19, c 20, d 63, d 55, c 6, d 40, d 32, c 28, c 13, d 41, c 0, d 6, d 25, d 17, c 22, c 14, c 8,
   c 1, d 0, d 26, c 31, d 18, d 11, d 51, c 2, d 35, d 20, d 12, d 60, d 59, d 52, c 3, d 9, d 28, d 21, c 25,
   d 13, c 10, d 53, d 3, d 30, d 29, c 18, c 11, d 62, c 5, d 46, d 4, d 31],
  [c 20, c 19, c 12, c 6, d 40, d 39, d 5, d 24, d 16, c 28, c 21, c 7, c 0, d 25, c 29, d 17, d 10, c 14, d 50,
   c 1, d 34, c 23, d 11, c 15, d 58, c 9, d 51, c 2, d 8, d 27, d 20, d 19, d 12, d 59, d 52, c 3, d 2, d 28, d 61,
   c 4, d 45, d 3, d 29, d 30, d 22, c 26, c 11, d 62, d 54, d 31],
  [d 23, c 27, c 20, d 63, d 47, d 5, d 32, d 24, c 28, c 7, c 0, c 30, c 8, d 49, d 50, c 1, d 7, d 34, d 0, c 31,
   d 11, c 23, d 58, d 8, d 35, d 27, d 1, c 24, d 60, c 3, d 44, d 28, d 21, d 13, c 10, d 61, c 4, d 37, d 3,
   d 30, c 26, c 18, d 54, d 4, d 31],
  [d 23, d 15, c 27, c 19, c 12, d 63, d 47, d 39, d 5, d 32, d 16, c 13, d 48, d 6, c 22, c 8, d 49, c 1, d 7,
   d 18, c 23, c 15, d 51, c 9, d 43, d 8, d 35, d 27, d 20, d 19, d 12, c 24, c 16, d 60, d 59, d 9, d 36, c 25,
   d 13, c 4, d 37, d 30, d 22, c 26, c 18, c 11, d 62, d 54, d 46, d 38, d 4],
  [c 27, c 19, c 20, d 63, d 39, d 32, d 16, c 21, d 48, d 33, d 6, c 29, d 17, c 22, d 10, c 14, d 57, d 50, d 42,
   d 7, d 0, c 31, d 11, c 15, d 58, d 51, c 9, d 12, c 24, d 59, d 9, d 36, d 2, d 21, c 25, d 13, c 17, c 10,
   d 61, d 45, d 22, d 14, c 18, d 62, d 54, d 46, d 4],
  [d 15, c 20, c 19, d 47, d 32, d 5, d 16, c 28, c 21, d 56, d 41, c 0, d 6, c 30, d 10, c 22, d 57, d 50, d 49,
   c 23, d 11, c 15, d 58, d 8, d 35, d 1, d 20, d 12, c 16, d 60, d 44, d 9, d 21, c 25, d 13, c 10, d 61, d 53,
   d 45, d 3, c 26, c 18, c 11, d 62, d 38, d 31],
  [c 27, d 15, c 19, c 20, c 12, d 55, d 40, d 5, c 21, d 56, d 48, c 0, c 29, d 10, c 22, d 57, d 49, c 1, d 7,
   d 34, d 0, c 31, d 11, c 23, d 43, d 8, d 19, d 20, c 24, d 12, c 16, d 60, d 59, d 52, d 44, d 9, d 2, c 17,
   d 61, d 37, d 30, c 26, d 14, c 11, d 46, d 31, d 4],
  [c 27, c 20, c 12, d 55, d 47, d 39, c 28, c 21, c 13, d 56, d 48, d 6, d 33, c 30, c 22, d 10, d 42, c 1, d 7,
   d 18, c 23, d 11, d 58, d 51, c 2, d 43, d 8, d 1, d 19, c 24, d 60, d 59, d 36, d 9, c 25, d 13, c 17, d 45,
   d 30, d 3, d 29, d 14, c 18, d 54, d 4],
  [d 15, c 19, c 12, d 63, d 55, d 39, d 16, d 41, c 0, d 33, d 6, d 17, c 14, d 50, d 42, d 7, d 34, d 26, c 15,
   d 58, d 51, d 19, d 12, c 24, c 16, d 59, c 3, d 44, d 28, c 25, d 37, c 5, d 46, d 31],
  [d 15, c 20, c 6, d 40, d 32, d 5, d 16, c 13, d 41, d 6, d 33, d 25, d 57, d 50, d 49, c 1, d 18, d 11, c 15,
   d 58, d 43, d 27, c 16, d 36, c 25, c 17, c 4, d 45, d 30, d 14, c 26, d 62, d 54, d 38],
  [c 27, d 15, d 40, d 39, d 5, d 32, d 24, c 21, d 56, c 7, d 48, c 0, d 17, d 10, c 14, d 57, d 49, d 42, d 26,
   c 2, d 35, c 16, d 44, d 13, c 17, d 61, d 53, d 37, d 29, c 26, d 14, c 18, c 5, d 31, d 4],
  [d 23, c 27, c 19, d 55, c 6, d 47, d 39, c 28, d 16, d 56, d 48, d 41, c 0, d 25, c 22, c 8, c 1, d 34, c 15,
   d 43, d 12, d 60, d 52, c 3, d 36, d 9, d 28, d 13, c 17, d 30, d 3, d 14, c 18, d 38, d 4, d 31],
  [d 15, c 20, c 19, d 55, d 47, d 40, d 24, c 28, c 7, d 33, c 29, c 1, d 42, d 11, c 23, c 9, d 51, c 2, d 35,
   d 8, d 27, d 12, c 16, d 59, d 2, d 13, c 4, d 37, d 29, d 3, d 30, d 22, c 18, d 54, d 46, d 38],
  [d 23, c 19, c 20, d 39, d 32, c 21, d 41, c 30, c 29, d 10, c 8, d 50, d 34, d 7, d 26, d 11, d 58, c 2, d 1,
   c 24, d 12, c 3, d 36, d 28, d 2, d 21, c 17, c 10, d 53, d 45, d 37, d 29, d 14, d 54, d 46, c 5],
  [d 15, c 20, c 12, d 63, c 6, d 47, d 39, d 40, d 5, d 32, c 28, d 16, c 13, d 6, d 25, c 29, c 30, d 49, d 34,
   d 26, d 18, d 11, c 23, c 15, d 51, c 9, c 2, d 8, d 27, d 1, d 20, d 19, c 16, d 52, c 3, d 44, d 36, d 2, d 28,
   c 25, d 45, c 4, d 37, d 3, d 29, d 22, c 26, c 11, d 54, c 5],
  [c 27, d 63, c 6, d 47, d 32, d 24, c 28, d 16, c 7, d 48, d 25, c 30, d 17, c 22, c 14, d 57, d 50, d 7, d 34,
   c 23, c 15, c 2, d 43, d 8, d 27, d 1, c 24, c 3, d 44, d 9, d 36, d 28, d 21, d 13, c 17, c 10, c 4, d 37, d 3,
   d 29, d 14, c 18, d 62, d 54, d 46, d 4],
  [d 23, d 15, c 19, d 47, d 24, d 16, c 28, d 56, c 7, c 0, d 6, d 33, c 29, c 8, d 49, d 42, d 7, d 26, d 0, c 31,
   c 23, c 15, d 43, d 8, d 35, d 27, d 20, c 24, d 12, c 16, c 3, d 36, d 2, d 28, c 25, d 13, d 61, d 53, c 4,
   d 45, d 3, c 18, c 11, d 62, c 5, d 46, d 31],
  [d 23, d 15, c 19, c 20, c 12, d 55, c 6, d 5, d 32, d 48, d 41, d 6, d 25, c 30, c 29, c 8, c 1, d 42, d 7, d 34,
   d 26, d 11, c 9, d 35, d 1, d 27, d 19, c 24, d 12, c 16, d 60, d 52, d 44, d 2, c 25, c 17, d 61, c 4, d 45,
   d 30, d 22, c 26, d 14, d 46, c 5],
  [d 15, c 27, c 20, c 12, d 63, c 6, d 39, d 40, d 32, d 24, c 28, d 16, c 7, d 41, d 6, d 25, c 29, c 30, c 22,
   d 57, d 11, c 23, c 15, c 9, d 43, d 8, d 35, d 1, d 19, c 16, d 60, d 59, d 44, d 9, d 2, d 21, c 25, c 17,
   c 10, d 53, d 45, d 37, d 3, d 22, d 14, d 38, d 4],
  [d 23, d 15, d 40, d 39, d 5, d 24, c 28, c 21, c 13, d 56, c 7, c 0, c 29, c 30, d 10, c 8, d 42, d 7, d 34, d 0,
   c 31, d 18, c 23, d 58, d 43, d 8, d 1, d 20, c 24, c 16, d 59, d 52, d 44, d 36, d 2, d 21, d 13, c 17, c 10,
   d 37, d 3, d 14, c 26, c 18, c 11, d 62, d 38, d 31],
  [d 23, c 27, c 19, c 12, d 55, d 39, d 41, d 6, d 33, c 30, c 29, d 17, c 22, c 14, d 57, c 8, c 1, d 42, d 7,
   d 0, c 31, d 58, c 9, d 51, d 43, d 35, d 1, d 19, d 20, c 24, d 12, d 9, d 36, d 2, d 13, c 25, c 17, d 61,
   d 37, d 30, d 22, d 14, c 18, c 11, d 38, d 4],
  [c 19, c 20, c 12, d 40, d 5, d 32, c 28, d 16, c 13, d 56, d 41, d 6, c 30, d 57, d 50, d 42, d 34, d 0, d 18,
   c 31, c 23, d 11, c 15, c 9, c 2, d 8, d 35, d 1, d 19, d 12, d 60, d 36, d 21, c 25, d 13, c 10, d 37, d 3,
   d 29, d 22, c 26, c 18, d 54, d 38],
  [c 27, d 15, c 20, c 19, d 55, d 40, d 39, d 5, c 21, c 13, d 56, d 41, c 0, d 33, d 17, c 29, d 10, c 14, d 49,
   d 7, d 34, d 0, c 31, d 18, d 11, d 35, d 20, c 24, d 12, c 16, d 59, c 3, d 36, d 2, d 28, d 21, c 10, d 53,
   d 37, c 26, c 11, d 4, d 31],
  [c 27, c 20, c 12, d 55, d 40, d 39, d 32, d 16, c 28, c 21, d 48, d 6, d 33, c 30, d 17, d 10, c 22, c 14, c 1,
   d 34, d 11, c 15, d 58, d 35, d 1, d 27, d 19, d 20, d 52, d 9, d 36, c 25, c 17, c 4, d 3, d 30, d 14, c 11,
   d 54, d 38, d 4]]

def crc8B (c : BitVec 32) (d : BitVec 64) : BitVec 32 := network 32 crc8BTerms c d

def crc7BTerms : List (List Term) := [
  [d 23, c 20, d 55, c 6, d 39, d 5, d 24, c 21, c 13, c 7, c 0, d 25, c 30, c 29, d 10, d 49, c 8, c 1, d 7, d 0,
   d 26, c 31, d 18, d 11, c 23, d 43, c 2, d 8, d 1, d 27, c 24, d 2, d 21, c 10, c 4, d 45, d 30, d 29, c 26,
   d 46, c 5, d 31],
  [c 27, c 20, d 55, d 39, d 5, c 13, d 48, c 0, d 6, c 29, d 17, c 22, c 14, d 49, d 42, d 18, d 11, c 23, c 9,
   d 43, d 8, d 27, d 20, c 3, d 44, d 9, d 2, d 28, d 21, c 25, c 10, c 4, d 22, c 26, c 11, d 54, d 46, d 38,
   d 31, d 4],
  [d 23, c 27, c 20, c 12, d 55, c 6, d 47, d 39, d 24, c 28, d 16, c 13, c 7, d 48, c 0, d 41, d 25, c 29, d 17,
   c 14, d 49, c 8, d 42, d 0, c 31, d 18, d 11, c 15, c 2, d 19, d 20, d 2, d 53, d 37, d 3, d 29, c 11, d 54,
   d 46, d 38, d 31, d 4],
  [d 23, d 15, c 12, d 47, d 40, d 24, c 28, d 16, c 21, c 13, d 48, c 7, d 41, c 29, c 30, d 17, d 10, c 14, c 8,
   c 1, d 18, c 15, c 9, d 1, d 19, c 16, d 52, c 3, d 36, d 2, d 28, d 53, d 45, d 37, d 30, d 3, d 22, d 54, d 46,
   d 38],
  [d 15, c 20, d 55, c 6, d 47, d 40, d 5, d 24, d 16, c 21, c 7, c 0, d 25, d 17, d 10, c 22, c 14, d 49, c 1, d 7,
   d 26, d 11, c 23, c 15, c 9, d 51, d 43, d 8, d 35, c 24, c 16, d 52, d 44, d 9, d 36, c 17, d 53, d 37, d 30,
   d 22, c 26, d 14, c 5, d 31],
  [c 27, d 15, c 20, d 55, d 5, d 16, c 13, d 48, c 0, d 6, c 30, c 29, c 22, d 49, d 50, d 42, d 34, d 0, d 26,
   c 31, d 18, d 11, c 15, d 51, d 35, d 1, d 27, c 16, d 52, d 9, d 36, d 2, d 13, c 25, c 17, c 4, d 45, c 26,
   d 14, c 18, d 54, c 5, d 31, d 4],
  [d 15, c 27, c 19, c 6, d 47, d 5, c 28, c 21, d 48, d 41, d 33, d 25, c 30, d 17, d 10, c 14, d 50, d 49, c 1,
   d 34, d 0, d 26, c 31, c 23, d 51, d 8, d 35, d 1, d 12, c 16, d 44, d 13, c 17, d 53, d 30, d 3, c 26, d 14,
   c 18, d 54, c 5, d 4],
  [d 23, c 27, c 19, d 55, d 47, d 40, d 39, d 5, d 32, c 28, d 16, c 21, c 13, d 48, c 0, d 33, c 30, d 10, c 22,
   c 8, d 50, c 1, d 34, d 26, d 18, c 23, c 15, d 8, d 1, d 27, d 12, d 52, d 9, d 21, d 13, c 17, c 10, d 53, c 4,
   d 45, d 3, d 30, c 26, d 14, c 18, c 5, d 31, d 4],
  [d 23, c 27, d 15, c 19, d 55, d 47, d 5, d 32, d 24, c 28, c 21, c 13, c 7, d 33, c 30, d 17, d 10, c 22, c 14,
   c 8, d 18, c 9, d 51, d 43, d 1, d 27, d 20, d 12, c 16, d 52, d 44, d 9, d 21, d 13, c 10, c 4, d 45, d 3, d 22,
   c 26, c 18, c 11, d 54, d 38, d 4],
  [d 23, c 27, c 19, c 20, c 12, d 32, c 28, d 16, c 0, c 29, d 17, c 22, c 14, c 8, d 50, d 42, d 0, d 26, c 31,
   c 23, d 11, c 15, c 9, d 51, d 43, d 8, d 20, d 19, d 12, d 44, d 9, d 2, d 21, c 17, c 10, d 53, d 37, d 3,
   d 22, d 14, c 11, d 54, c 5, d 46, d 4, d 31],
  [d 23, d 15, c 12, d 55, d 39, d 5, d 24, c 28, d 16, c 7, d 41, c 8, d 50, d 42, d 0, d 26, c 31, c 15, c 9, c 2,
   d 27, d 19, d 20, c 16, d 52, d 36, d 13, d 53, c 4, d 3, d 29, d 22, c 26, c 18, c 11, d 46, c 5],
  [c 27, d 15, c 19, c 20, c 12, d 55, d 40, d 39, d 5, d 24, c 21, c 7, c 0, d 41, c 30, d 10, c 1, d 7, d 0, c 31,
   d 11, c 23, c 9, d 51, d 43, c 2, d 8, d 35, d 1, d 27, d 19, c 24, d 12, c 16, d 52, c 3, d 28, c 17, c 4, d 30,
   d 29, d 22, c 26, d 14, d 54, d 46, d 38, d 31, d 4],
  [c 27, d 55, c 6, d 40, d 5, d 24, c 28, c 7, c 0, d 6, d 25, c 30, c 29, c 22, d 49, d 50, d 42, d 34, c 23,
   d 51, d 43, d 8, d 1, c 3, d 9, d 2, d 28, d 13, c 25, c 17, d 53, d 37, d 3, c 26, d 14, c 18, d 54, d 46, d 38,
   d 31, d 4],
  [d 23, c 27, c 19, d 39, d 5, d 24, c 28, d 48, c 7, d 41, d 33, c 29, c 30, c 8, d 50, d 49, d 42, c 1, d 7, d 0,
   c 31, c 23, d 8, d 1, d 27, d 12, c 24, d 52, d 36, d 2, d 13, d 53, c 4, d 45, d 37, d 30, d 3, c 26, c 18,
   d 54, d 4],
  [d 23, c 27, c 20, c 19, d 47, d 40, d 32, c 28, d 48, d 41, d 6, c 29, c 30, c 8, d 49, d 7, d 0, d 26, c 31,
   d 11, c 9, d 51, c 2, d 35, d 1, c 24, d 12, d 52, d 44, d 36, d 2, c 25, d 53, d 29, d 3, d 22, c 5, d 38, d 4],
  [c 20, c 6, d 47, d 40, d 39, d 5, c 28, c 21, d 48, c 0, d 6, d 25, c 30, c 29, d 10, d 50, d 34, d 0, c 31,
   d 11, c 9, d 51, d 43, d 35, d 1, d 52, c 3, d 28, d 2, d 21, c 25, c 10, d 37, d 3, d 22, c 26, d 46, d 31],
  [d 23, c 27, c 20, d 55, c 6, d 47, c 13, c 0, d 33, d 25, c 22, c 8, d 50, d 42, d 7, d 34, d 26, d 18, d 11,
   c 23, d 51, d 43, c 2, d 8, d 20, c 24, d 9, d 36, d 29, c 11, c 5, d 38, d 31, d 4],
  [c 12, c 6, d 32, d 24, c 28, c 21, c 7, d 41, d 6, d 33, d 25, d 17, d 10, c 14, d 50, d 49, d 42, c 1, d 7,
   c 23, c 9, d 8, d 35, d 19, c 24, c 3, d 28, c 25, d 37, d 30, d 3, d 22, d 54, d 46],
  [d 23, d 40, d 5, d 32, d 24, d 16, c 13, c 7, d 48, d 41, c 0, d 6, c 29, c 22, c 8, d 49, d 7, d 34, d 18, c 15,
   c 2, d 27, c 24, d 9, d 36, d 2, d 21, c 25, c 10, d 53, c 4, d 45, d 29, c 26, d 31],
  [d 23, c 27, d 15, d 47, d 40, d 39, d 5, d 48, c 0, d 6, d 33, c 30, d 17, c 14, c 8, c 1, d 26, c 23, c 9, d 8,
   d 35, d 1, d 20, c 16, d 52, c 3, d 44, d 28, c 25, d 30, d 22, c 26, c 11, c 5, d 4, d 31],
  [c 27, c 12, c 6, d 47, d 39, d 5, d 32, c 28, d 16, d 25, c 1, d 7, d 34, d 0, c 31, c 15, d 51, c 9, c 2, d 43,
   d 27, d 19, c 24, d 21, c 17, c 10, c 4, d 3, d 30, d 29, d 22, c 26, d 14, d 46, d 38, d 4],
  [c 27, d 15, d 24, c 28, c 13, c 7, c 0, d 6, d 33, c 29, d 50, d 42, d 26, d 18, c 2, d 20, c 16, c 3, d 2, d 28,
   d 21, c 25, d 13, c 10, d 45, d 37, d 3, d 29, c 18, c 11, c 5, d 46, d 38, d 4, d 31],
  [c 19, c 20, c 12, d 55, d 39, d 32, d 24, c 28, c 21, c 13, c 7, c 0, d 41, d 17, d 10, c 14, d 7, d 0, d 26,
   c 31, d 18, d 11, c 23, d 43, c 2, d 8, d 19, d 20, c 24, d 12, c 3, d 44, d 36, d 28, d 21, c 17, c 10, d 37,
   d 3, d 29, d 14, c 11, d 46, c 5, d 31],
  [c 12, d 55, d 40, d 39, d 5, d 24, d 16, c 7, d 6, c 30, d 17, c 22, c 14, d 49, d 42, d 0, d 26, c 31, c 23,
   c 15, c 2, d 8, d 35, d 1, d 19, d 20, c 3, d 9, d 36, d 28, d 21, d 13, c 25, c 10, d 29, c 26, c 18, c 11,
   d 54, d 46, c 5, d 38],
  [d 23, d 15, c 27, c 19, c 12, c 6, d 39, d 5, d 16, c 13, d 48, d 41, d 25, c 8, d 7, d 34, d 0, d 18, c 31,
   c 23, c 15, d 8, d 35, d 27, d 20, d 19, d 12, c 24, c 16, c 3, d 28, d 53, c 4, d 45, d 37, c 26, c 11, d 54,
   d 38, d 4],
  [c 27, d 15, c 20, c 12, d 47, d 40, d 24, c 28, c 13, c 7, d 6, d 33, d 17, c 14, d 7, d 34, d 26, d 18, d 11,
   c 9, d 27, d 19, c 24, c 16, d 52, d 44, d 36, c 25, c 17, d 53, c 4, d 37, d 3, d 22, d 14, c 5, d 38, d 4],
  [c 20, d 55, d 32, d 24, c 28, d 16, c 7, c 0, d 6, d 33, c 30, d 17, c 14, d 49, c 1, d 7, d 0, c 31, d 11, c 23,
   c 15, d 51, c 2, d 8, d 35, d 1, d 27, c 24, d 52, d 36, d 13, c 25, c 17, c 4, d 45, d 37, d 3, d 30, d 29,
   d 14, c 18, d 31],
  [d 23, d 15, c 19, d 5, d 32, d 16, c 21, d 48, c 0, d 6, c 29, d 10, c 8, d 50, c 1, d 7, d 34, d 0, d 26, c 31,
   c 15, d 51, c 2, d 35, d 12, c 24, c 16, c 3, d 44, d 36, d 2, d 28, c 25, d 13, d 30, d 29, c 26, c 18, d 54,
   c 5, d 31],
  [c 27, d 15, c 20, c 19, d 47, c 6, d 5, c 0, d 6, d 33, d 25, c 30, c 22, d 50, d 49, c 1, d 34, d 11, c 9, c 2,
   d 43, d 35, d 1, d 27, d 12, c 16, c 3, d 9, d 28, c 25, c 17, d 53, c 4, d 29, d 30, d 22, c 26, d 14, d 4,
   d 31],
  [c 27, c 20, d 5, d 32, d 24, c 28, c 21, c 7, d 48, d 33, d 10, d 49, c 1, d 42, d 34, d 0, d 26, c 31, c 23,
   d 11, c 2, d 8, d 27, d 52, c 3, d 28, d 21, d 13, c 17, c 10, c 4, d 3, d 30, d 29, c 26, d 14, c 18, d 46, c 5,
   d 4],
  [d 23, c 27, c 19, c 6, d 47, d 32, c 28, c 21, d 48, d 41, c 0, d 33, d 25, c 29, c 22, d 10, c 8, d 7, d 26,
   d 51, c 2, d 27, d 20, d 12, c 24, c 3, d 9, d 2, d 28, d 13, d 45, c 4, d 3, d 29, c 18, c 11, c 5, d 4, d 31],
  [c 20, c 19, c 12, c 6, d 47, d 40, d 32, d 24, c 28, c 7, c 0, d 6, d 25, c 29, c 30, c 22, d 50, c 1, d 26,
   c 23, d 11, c 9, d 8, d 1, d 27, d 19, d 12, d 44, c 3, d 9, d 2, d 28, c 25, c 4, d 3, d 30, d 22, c 5, d 46,
   d 31]]

def crc7B (c : BitVec 32) (d : BitVec 56) : BitVec 32 := network 32 crc7BTerms c d

def crc6BTerms : List (List Term) := [
  [d 41, d 23, c 0, d 15, c 9, c 10, d 35, d 17, c 29, c 12, d 10, c 14, d 19, d 37, d 47, d 3, c 16, d 22, c 8,
   c 18, c 28, d 16, d 0, c 21, c 31, d 18, c 13, d 2, c 15, d 21, d 38, d 13, d 31],
  [d 23, c 19, c 12, d 47, d 40, c 28, c 21, d 41, c 0, c 30, d 10, c 22, c 8, c 1, d 34, d 0, c 31, d 35, d 1,
   d 20, d 19, d 12, d 9, d 36, d 13, c 17, d 3, d 30, d 14, c 18, c 11, d 46, d 38, d 31],
  [d 23, d 15, c 20, c 19, d 47, d 40, d 39, c 28, d 16, c 21, d 41, c 0, d 33, d 17, d 10, c 22, c 14, c 8, c 1,
   d 34, d 11, c 23, c 15, c 2, d 8, d 12, c 16, d 9, d 21, c 10, d 45, d 29, d 3, d 30, d 46, d 38, d 31],
  [d 15, c 20, d 40, d 39, d 32, d 16, c 21, d 33, c 29, d 10, c 22, c 1, d 7, c 23, d 11, c 15, c 9, c 2, d 8,
   d 20, c 24, c 16, c 3, d 44, d 9, d 28, d 2, c 17, d 45, d 37, d 30, d 29, d 22, d 14, c 11, d 46, d 38],
  [d 23, d 47, d 39, d 32, c 28, d 16, c 13, d 41, d 6, d 17, c 29, c 30, c 22, c 14, c 8, d 7, d 0, c 31, d 18,
   c 23, c 15, c 9, c 2, d 43, d 35, d 8, d 1, d 27, c 24, c 3, d 44, d 9, d 36, d 2, d 28, c 25, c 17, c 4, d 45,
   d 29, d 3, d 22, d 14],
  [d 23, c 12, d 47, d 40, d 5, c 28, c 21, c 13, d 41, d 6, c 30, d 10, c 8, d 42, d 7, d 34, d 26, d 18, c 23,
   d 43, d 8, d 1, d 27, d 19, c 24, c 3, d 44, d 28, c 25, c 4, d 37, d 3, c 26, c 5, d 46],
  [c 27, c 6, d 40, d 39, d 5, c 13, d 41, d 6, d 33, d 25, c 29, d 17, c 22, c 14, d 42, d 7, d 0, d 26, c 31,
   d 18, c 9, d 43, d 27, c 24, d 9, d 36, d 2, c 25, c 4, d 45, d 22, c 26, d 46, c 5, d 4],
  [d 23, c 27, d 15, c 12, d 47, c 6, d 39, d 40, d 5, d 32, d 24, c 21, c 13, c 7, c 0, d 6, d 25, c 29, c 30,
   d 10, c 8, d 42, d 0, d 26, c 31, d 18, c 23, c 9, d 8, d 1, d 19, c 16, d 44, d 2, d 13, c 25, d 45, d 37, d 22,
   c 26, c 18, c 5, d 4, d 31],
  [c 27, d 15, c 19, c 12, d 47, c 6, d 39, d 5, d 24, d 16, c 21, c 7, d 25, c 29, c 30, d 10, c 22, c 1, d 7,
   c 15, d 43, d 35, d 1, d 19, c 24, d 12, c 16, d 44, d 9, d 36, d 2, d 13, c 17, d 37, d 30, c 26, d 14, c 18,
   d 46, d 4],
  [d 23, c 27, d 15, c 19, c 20, d 24, c 28, c 13, c 7, d 6, c 30, c 22, c 8, d 42, d 34, d 0, c 31, d 18, c 23,
   d 11, c 2, d 43, d 8, d 35, d 1, d 12, c 16, d 9, d 36, c 25, d 13, c 17, d 45, d 3, d 29, d 14, c 18, d 46,
   d 38, d 4],
  [d 15, c 20, c 19, c 12, d 47, d 5, d 16, c 13, c 0, d 33, d 42, d 7, d 34, d 18, d 11, c 23, c 15, d 8, d 19,
   c 24, d 12, c 16, c 3, d 44, d 28, d 21, c 17, c 10, d 45, c 26, d 14, d 38, d 31],
  [d 23, c 27, c 20, c 12, d 47, d 32, c 28, d 16, c 0, d 6, d 33, c 29, c 8, c 1, d 7, d 0, c 31, d 11, c 15, c 9,
   d 43, d 35, d 27, d 20, d 19, c 24, d 44, d 2, d 21, c 25, c 17, c 10, c 4, d 3, d 30, d 22, d 14, c 11, d 46,
   d 38, d 4, d 31],
  [d 23, d 47, d 5, d 32, d 16, d 41, d 6, d 17, c 30, c 14, c 8, c 1, d 42, d 34, d 0, d 26, c 31, c 15, c 2, d 43,
   d 35, d 1, d 20, c 25, d 45, d 29, d 30, c 26, c 11, c 5, d 46, d 38],
  [c 27, d 15, c 12, c 6, d 40, d 5, d 16, c 0, d 41, d 33, d 25, d 42, d 34, d 0, c 31, c 15, c 9, c 2, d 19, c 16,
   c 3, d 44, d 28, d 45, d 37, d 29, d 22, c 26, d 46, d 4, d 31],
  [d 15, c 27, d 39, d 40, d 32, d 24, c 28, c 13, c 7, d 41, d 33, c 1, d 18, d 43, d 27, c 16, d 44, c 3, d 36,
   d 28, d 21, c 17, c 10, d 45, c 4, d 3, d 30, d 14, d 4],
  [d 23, d 40, d 39, d 32, c 28, c 0, c 29, d 17, c 14, c 8, d 42, d 26, c 2, d 43, d 35, d 27, d 20, d 44, d 2,
   d 13, c 17, c 4, d 3, d 29, d 14, c 18, c 11, c 5, d 38, d 31],
  [d 23, d 15, c 19, d 47, c 6, d 39, c 28, c 21, c 13, d 25, d 17, c 30, d 10, c 14, c 8, d 42, c 1, d 34, d 0,
   d 26, c 31, d 18, d 43, d 35, d 1, d 12, c 16, c 3, d 28, d 21, c 10, d 3, d 30, c 5],
  [c 20, c 6, d 24, d 16, c 7, d 41, d 33, d 25, c 29, d 17, c 22, c 14, d 42, d 34, d 0, c 31, d 11, c 15, c 9,
   c 2, d 27, d 20, d 9, d 2, c 17, c 4, d 29, d 22, d 14, c 11, d 46, d 38],
  [d 23, d 15, c 12, d 40, d 32, d 24, d 16, c 21, c 7, d 41, d 33, c 30, d 10, c 8, d 26, c 23, c 15, d 8, d 1,
   d 19, c 16, c 3, d 28, d 21, d 13, c 10, d 45, d 37, c 18, c 5],
  [d 23, d 15, c 19, c 6, d 39, d 40, d 32, c 13, c 0, d 25, c 22, c 8, d 7, d 0, c 31, d 18, c 9, d 27, d 20, c 24,
   d 12, c 16, d 44, d 9, d 36, c 17, c 4, d 22, d 14, c 11, d 31],
  [c 20, c 12, d 39, d 24, c 7, c 0, d 6, d 17, c 14, c 1, d 26, d 11, c 23, c 9, d 43, d 8, d 35, d 19, d 21, d 13,
   c 25, c 17, c 10, d 30, d 22, d 14, c 18, c 5, d 38, d 31],
  [d 23, c 19, c 6, d 5, d 16, c 21, c 13, d 25, d 10, c 8, d 42, c 1, d 7, d 34, d 18, c 15, c 2, d 20, d 12, c 24,
   d 21, d 13, c 10, d 37, d 30, d 29, c 26, c 18, c 11, d 38],
  [d 23, c 27, c 20, c 19, d 47, d 24, c 28, d 16, c 21, c 13, c 7, c 0, d 6, d 33, c 29, d 10, c 22, c 8, d 0,
   c 31, d 18, d 11, c 15, c 2, d 35, d 20, d 12, c 3, d 9, d 36, d 2, d 28, d 21, d 13, c 25, c 10, d 29, d 3,
   c 18, c 11, d 38, d 4, d 31],
  [c 20, c 19, d 47, d 5, d 32, d 16, c 13, d 41, c 0, c 30, c 22, c 1, d 34, d 0, c 31, d 18, d 11, c 23, c 15,
   d 8, d 1, d 27, d 20, d 12, c 3, d 9, d 28, d 21, d 13, c 10, c 4, d 30, c 26, c 18, c 11, d 46, d 38, d 31],
  [c 27, d 15, c 19, c 20, c 12, d 40, c 21, c 0, d 33, d 17, d 10, c 14, c 1, d 7, d 0, d 26, c 31, c 23, d 11,
   c 2, d 8, d 27, d 19, d 20, c 24, d 12, c 16, c 4, d 45, d 37, d 30, d 29, c 11, d 46, c 5, d 4, d 31],
  [c 20, c 12, c 6, d 39, d 32, c 28, d 16, c 21, c 13, d 6, d 25, c 22, d 10, c 1, d 7, d 26, d 18, d 11, c 15,
   c 2, d 19, c 24, d 44, c 3, d 9, d 36, d 28, c 25, c 17, d 45, d 3, d 30, d 29, d 14, c 5],
  [d 23, c 12, d 47, c 6, d 5, d 24, c 28, d 16, c 7, d 41, d 6, d 25, c 22, c 8, d 0, c 31, c 23, c 15, c 9, c 2,
   d 43, d 8, d 27, d 19, c 3, d 44, d 9, d 28, d 21, c 25, c 10, c 4, d 37, d 29, d 3, d 22, c 26],
  [d 23, c 27, d 15, d 40, d 5, d 24, c 13, c 7, c 29, c 8, d 42, d 7, d 26, d 18, c 23, c 9, d 43, d 8, d 27, d 20,
   c 24, c 16, c 3, d 36, d 28, d 2, d 21, c 10, c 4, d 22, c 26, c 11, d 46, c 5, d 4],
  [d 23, c 27, c 12, c 6, d 39, c 28, d 41, d 6, d 25, c 30, d 17, c 14, c 8, d 42, d 7, d 26, c 9, d 35, d 27, d 1,
   d 20, d 19, c 24, d 21, c 25, c 17, c 10, d 45, c 4, d 3, d 22, d 14, c 11, c 5, d 4],
  [c 12, c 6, d 40, d 5, d 24, d 16, c 28, c 13, c 7, d 41, d 6, d 25, c 29, d 34, d 26, d 0, c 31, d 18, c 15, c 9,
   d 20, d 19, d 44, d 2, d 21, c 25, d 13, c 10, d 3, d 22, c 26, c 18, c 11, c 5, d 38],
  [d 23, c 27, d 15, c 19, c 12, c 6, d 40, d 39, d 5, d 24, c 13, c 7, d 33, d 25, c 30, c 29, d 17, c 14, c 8,
   d 18, d 43, d 1, d 19, d 20, d 12, c 16, d 2, d 21, c 10, d 37, c 26, c 11, d 4],
  [c 17, d 23, c 27, c 9, c 20, c 30, d 17, c 12, d 1, d 20, c 14, d 19, d 3, d 22, d 39, d 14, c 8, d 32, d 42,
   d 24, c 28, c 11, d 16, d 0, d 36, d 18, c 31, c 13, d 11, c 15, d 38, d 4, c 7]]

def crc6B (c : BitVec 32) (d : BitVec 48) : BitVec 32 := network 32 crc6BTerms c d

def crc5BTerms : List (List Term) := [
  [c 17, d 23, d 33, d 15, c 20, c 2, c 29, d 8, d 27, c 22, c 4, d 10, c 24, d 30, d 29, d 39, c 16, d 5, c 26,
   d 14, c 8, c 18, c 1, d 7, c 21, d 9, d 2, d 11, c 23, d 13],
  [d 23, d 33, d 15, d 6, c 27, c 9, c 19, c 20, c 29, c 30, d 27, d 1, c 4, d 12, d 30, d 39, c 16, d 22, d 5,
   c 26, c 8, d 32, c 1, d 26, c 3, d 2, d 11, c 5, d 28, d 38, c 25, d 4],
  [d 23, c 0, d 33, d 15, c 10, c 27, c 9, d 25, c 29, c 30, d 8, c 22, d 1, d 37, d 3, c 24, d 30, c 6, d 39, c 16,
   d 22, c 8, d 32, c 18, c 1, c 28, d 7, d 0, d 26, d 9, c 31, d 2, c 23, c 5, d 21, d 38, d 4, d 13, d 31],
  [c 17, c 0, d 6, c 9, c 10, c 19, c 2, d 25, d 8, c 29, c 30, d 1, d 20, d 37, c 24, d 3, d 12, d 29, c 6, d 30,
   d 22, d 32, d 14, d 24, c 1, c 11, d 7, c 28, d 0, c 31, d 36, d 2, c 23, d 38, d 21, c 25, d 31, c 7],
  [d 15, c 12, d 39, d 24, c 21, c 7, c 0, d 33, d 6, c 30, c 22, d 10, d 0, c 31, c 23, d 8, d 35, d 27, d 1, d 20,
   d 19, c 16, c 3, d 9, d 36, d 28, d 21, c 25, c 17, c 10, c 4, d 37, d 14, c 11, d 31],
  [d 15, c 20, c 12, d 39, d 32, c 21, c 13, d 33, c 29, d 10, d 34, d 0, d 26, c 31, d 18, d 11, c 2, d 35, d 20,
   d 19, c 16, d 36, d 2, d 29, c 11, c 5, d 38],
  [c 12, c 6, d 32, c 21, c 13, c 0, d 33, d 25, c 30, d 17, d 10, c 22, c 14, d 34, d 18, d 35, d 1, d 19, c 3,
   d 9, d 28, c 17, d 37, d 14, d 38, d 31],
  [d 23, d 15, c 20, d 39, d 5, d 32, d 24, d 16, c 21, c 13, c 7, c 0, c 29, d 17, d 10, c 14, c 8, d 7, d 34, d 0,
   c 31, d 18, d 11, c 15, c 2, c 24, c 16, d 36, d 2, c 17, d 37, d 29, c 26, d 14, d 31],
  [c 0, d 6, c 27, c 9, c 20, c 2, c 29, c 30, d 8, d 17, d 35, d 27, d 1, c 4, c 14, c 24, d 29, d 39, d 22, d 5,
   c 26, d 7, d 16, c 3, d 36, d 2, d 11, c 23, d 28, d 38, c 15, c 25, d 4, d 31],
  [c 27, d 6, d 15, c 10, c 30, d 35, d 1, d 10, d 27, c 4, d 37, c 24, d 3, d 30, c 16, d 5, c 26, c 1, d 7, d 16,
   c 28, d 34, d 26, d 0, c 21, c 3, c 31, c 5, d 28, d 38, c 15, d 21, d 4, c 25],
  [d 23, c 27, c 20, c 6, d 39, c 28, c 21, d 6, d 25, d 10, c 8, c 1, d 7, d 34, d 0, d 26, c 31, d 11, c 23, d 8,
   d 20, c 24, d 36, c 25, d 13, d 37, d 3, d 30, c 18, c 11, c 5, d 4],
  [c 17, d 23, d 15, d 6, c 9, c 19, c 20, d 25, d 8, c 12, d 35, d 27, c 4, d 19, d 3, d 12, d 30, c 6, d 39, c 16,
   d 22, d 14, c 8, d 24, c 18, c 1, c 28, d 36, d 11, c 23, d 38, c 25, c 7, d 13],
  [d 33, d 15, c 10, c 9, c 19, d 8, d 35, d 27, c 22, c 4, d 37, d 12, d 30, d 39, c 16, d 22, d 24, c 1, d 34,
   d 26, d 9, d 18, c 13, c 23, c 5, d 21, d 38, c 7],
  [c 17, d 23, c 10, d 33, c 20, c 2, d 25, d 8, d 17, d 20, c 14, d 37, c 24, d 29, c 6, d 32, d 14, c 8, c 11,
   d 7, d 34, d 26, d 36, c 23, d 11, c 5, d 38, d 21],
  [c 0, d 6, c 9, d 33, d 25, c 12, d 35, d 10, d 37, d 19, d 20, c 24, c 6, d 22, d 32, c 18, d 24, d 7, d 16,
   c 11, c 21, c 3, d 36, d 28, c 15, d 31, d 13, c 25, c 7],
  [d 23, c 0, d 6, d 15, c 10, c 19, d 35, c 12, c 22, d 27, c 4, d 19, d 30, d 12, c 16, d 5, c 26, c 8, d 32,
   d 24, c 1, d 34, d 36, d 18, d 9, c 13, d 21, c 25, c 7, d 31],
  [d 15, c 27, d 39, c 21, c 13, c 0, c 29, d 17, c 22, d 10, c 14, d 7, d 34, d 26, d 18, c 9, d 35, d 27, d 20,
   c 24, c 16, d 9, d 2, d 13, c 4, d 22, c 18, c 11, c 5, d 4, d 31],
  [c 17, d 6, d 33, c 10, c 19, d 25, d 8, c 30, d 17, c 12, d 1, c 22, c 14, d 19, d 3, d 12, c 6, d 30, d 14, c 1,
   d 16, c 28, d 34, d 26, d 9, c 23, c 5, d 38, c 15, d 21, c 25],
  [d 15, d 33, d 25, c 20, c 2, c 29, d 8, d 37, d 20, c 24, c 6, d 29, c 16, d 5, c 26, d 32, c 18, d 24, d 7,
   d 16, c 11, d 0, c 31, d 18, c 13, d 2, d 11, c 23, c 15, d 13, c 7],
  [c 17, d 23, c 0, d 6, d 15, c 27, c 19, c 30, d 17, c 12, d 1, d 10, c 14, d 19, d 12, c 24, c 16, d 14, d 32,
   c 8, d 24, d 7, c 21, c 3, d 36, d 28, c 25, d 4, c 7, d 31],
  [d 23, c 17, c 0, d 6, c 9, c 20, d 35, c 22, d 27, c 4, d 3, d 30, d 22, d 5, c 26, d 14, c 8, c 18, c 1, c 28,
   d 16, d 0, c 31, d 9, d 18, c 13, d 11, c 15, d 13, c 25, d 31],
  [c 27, c 9, d 15, c 10, c 19, c 2, c 29, d 8, d 17, d 10, c 14, d 12, d 30, d 29, d 22, c 16, d 5, c 26, c 18,
   c 1, d 34, c 21, d 26, d 2, c 23, c 5, d 21, d 4, d 13],
  [d 23, d 15, c 10, c 27, c 19, d 25, c 29, c 30, d 8, d 27, d 1, c 4, d 10, d 20, d 3, d 12, d 30, c 6, d 39,
   c 16, d 5, c 26, c 8, c 18, c 1, c 28, c 11, d 16, c 21, c 3, d 2, c 23, d 28, d 21, c 15, d 4, d 13],
  [d 23, d 33, c 27, c 9, c 19, c 30, d 8, c 12, d 1, d 10, d 20, d 19, d 3, d 12, d 30, d 39, d 22, d 5, c 26, c 8,
   d 24, c 18, c 1, c 28, c 11, d 0, c 21, d 26, c 31, c 23, c 5, d 38, d 4, c 7, d 13],
  [d 23, c 27, c 9, c 10, c 20, c 19, c 2, d 25, c 29, c 12, c 22, d 19, d 37, c 24, d 3, d 12, d 29, c 6, d 22,
   d 32, c 8, d 7, c 28, d 0, c 31, d 9, d 18, c 13, d 2, d 11, d 38, d 21, d 4],
  [c 0, d 6, c 9, c 10, c 20, c 30, c 29, d 8, d 17, d 1, d 10, d 37, c 14, d 20, d 3, d 22, d 24, c 28, c 11, c 21,
   c 3, d 18, c 13, d 36, d 2, d 11, d 28, c 23, d 21, d 31, c 25, c 7],
  [c 17, d 33, d 15, c 10, c 20, c 2, c 30, d 8, d 17, c 12, d 35, d 1, c 14, d 20, d 19, d 29, d 39, c 16, d 14,
   c 18, c 11, d 16, d 0, c 31, d 36, d 11, c 23, d 21, c 15, d 13],
  [c 17, d 15, c 19, c 12, d 35, d 10, d 20, d 19, c 24, d 12, c 16, d 32, d 14, c 18, c 11, d 7, d 16, d 34, d 0,
   c 21, c 3, c 31, d 18, c 13, d 28, d 38, c 15, d 13],
  [c 0, c 17, d 6, d 15, d 33, c 19, c 20, c 12, d 17, c 22, d 27, c 4, d 37, d 19, c 14, d 12, c 16, d 14, c 18,
   d 34, d 9, d 18, c 13, d 11, d 31, d 13, c 25],
  [c 17, d 33, c 19, c 20, d 8, d 17, d 10, c 14, d 30, d 12, d 5, c 26, d 14, d 32, c 1, c 18, d 16, c 21, d 26,
   d 36, d 18, c 13, c 23, d 11, c 5, c 15, d 13],
  [c 0, c 27, d 15, c 20, c 2, d 25, c 19, d 35, d 17, d 10, c 22, c 14, d 29, c 24, c 6, d 12, c 16, d 32, c 18,
   d 7, d 16, c 21, d 9, d 11, c 15, d 4, d 13, d 31],
  [c 17, c 0, d 6, d 15, c 19, c 20, d 8, d 10, c 22, d 3, d 12, d 30, c 16, d 14, d 24, c 1, d 34, d 16, c 28,
   c 21, c 3, d 9, d 28, c 23, d 11, c 15, c 25, c 7, d 31]]

def crc5B (c : BitVec 32) (d : BitVec 40) : BitVec 32 := network 32 crc5BTerms c d

def crc4BTerms : List (List Term) := [
  [c 0, d 6, d 15, c 9, c 10, d 25, c 30, c 12, c 29, d 1, d 19, c 24, d 3, c 6, c 16, d 22, d 5, c 26, d 7, c 28,
   d 0, c 31, d 2, d 21, d 31, c 25],
  [c 0, c 17, c 27, d 15, c 9, d 25, c 12, d 19, d 20, c 24, d 3, c 6, d 30, c 16, d 22, d 14, d 24, c 1, d 7, c 28,
   c 11, d 18, c 13, d 31, d 4, c 7],
  [c 0, c 17, d 23, d 15, c 9, d 25, c 2, c 30, d 17, d 1, c 14, c 24, c 6, d 30, d 29, c 16, d 22, d 5, c 26, d 14,
   c 8, c 18, d 24, c 1, d 7, d 0, c 31, d 18, c 13, d 31, d 13, c 7],
  [c 17, d 23, d 6, c 27, c 10, c 9, c 19, c 2, d 17, c 14, d 30, d 12, d 29, d 22, d 14, c 8, d 24, c 1, c 18,
   d 16, d 0, c 3, c 31, d 28, d 21, c 15, c 25, d 4, c 7, d 13],
  [c 0, d 23, d 6, d 25, c 19, c 20, c 2, c 30, c 12, c 29, d 1, d 27, c 4, d 19, d 20, c 24, c 6, d 12, d 29, c 8,
   c 18, d 7, d 16, c 11, d 0, c 3, c 31, d 2, d 11, d 28, c 15, d 31, d 13, c 25],
  [c 0, c 10, d 25, c 19, c 20, c 29, d 10, d 27, c 4, c 24, d 3, c 6, d 12, d 30, d 24, c 1, d 7, c 28, c 21, c 3,
   d 26, d 18, c 13, d 2, d 11, d 28, c 5, d 21, d 31, c 7],
  [d 23, d 6, c 20, c 2, d 25, c 29, c 30, d 17, c 22, d 1, d 10, d 27, c 4, d 20, c 14, d 30, d 29, c 6, c 8, d 24,
   c 1, c 11, c 21, d 26, d 9, d 2, d 11, c 5, c 25, c 7],
  [c 0, d 23, d 6, d 15, c 10, c 2, c 29, d 8, d 10, c 22, c 24, d 3, d 29, c 16, c 8, d 24, d 7, c 28, d 16, c 21,
   c 3, d 26, d 9, d 2, c 23, d 28, c 5, c 15, d 21, d 31, c 25, c 7],
  [c 0, c 17, d 23, c 10, c 12, d 8, c 22, d 27, c 4, d 19, d 20, d 3, d 30, d 14, c 8, c 1, c 28, c 11, d 0, c 3,
   c 31, d 9, c 23, d 28, d 21, d 31],
  [c 9, c 2, c 29, d 8, c 12, d 27, c 4, d 20, d 19, d 30, d 29, c 24, d 22, c 1, c 18, c 11, d 7, d 26, d 18, c 13,
   d 2, c 23, c 5, d 13],
  [c 0, d 15, c 9, c 19, c 2, c 29, d 17, c 14, d 3, d 12, d 29, c 16, d 22, d 5, c 26, c 28, d 0, c 3, d 26, c 31,
   d 18, c 13, d 2, d 28, c 5, d 31],
  [c 0, c 17, c 27, d 6, d 15, c 9, c 20, c 12, d 17, d 27, c 4, d 19, c 14, c 24, d 3, d 30, c 16, d 22, d 5, c 26,
   d 14, c 1, d 7, c 28, d 16, d 0, c 3, c 31, d 11, d 28, c 15, d 31, d 4, c 25],
  [c 0, c 17, c 27, c 9, d 25, c 2, c 30, c 12, d 1, d 10, d 27, c 4, d 19, c 24, c 6, d 30, d 29, d 22, d 14, c 18,
   c 1, d 7, d 16, d 0, c 21, d 26, c 31, d 18, c 13, c 5, c 15, d 31, d 13, d 4],
  [d 6, d 15, c 10, c 19, c 2, d 25, d 17, c 22, c 14, d 30, d 12, d 3, d 29, c 6, c 16, d 24, c 1, c 18, c 28, d 0,
   c 3, d 26, d 18, c 31, d 9, c 13, d 28, c 5, d 21, c 25, c 7, d 13],
  [d 23, c 17, c 20, c 2, c 19, d 25, d 17, c 29, d 8, d 27, c 4, c 14, d 20, d 29, d 12, c 6, d 5, c 26, d 14, c 8,
   d 24, c 11, d 16, c 3, d 11, d 2, c 23, d 28, c 15, c 7],
  [d 23, c 27, c 9, d 15, c 20, c 30, c 12, d 10, d 1, d 27, c 4, d 19, c 24, d 22, c 16, c 8, c 18, d 24, d 16,
   d 7, c 21, c 3, d 26, d 28, d 11, c 5, c 15, d 4, d 13, c 7],
  [c 0, c 17, d 23, c 19, c 30, c 12, c 29, d 1, d 10, c 22, d 27, c 4, d 19, c 24, d 12, d 5, c 26, d 14, c 8, d 7,
   c 21, d 26, d 9, d 18, c 13, d 2, c 5, d 31],
  [d 6, c 27, c 9, c 20, d 25, d 8, c 30, d 17, c 22, d 1, c 14, d 30, c 6, d 22, c 1, c 18, d 0, d 26, d 18, c 31,
   d 9, c 13, c 23, d 11, c 5, c 25, d 4, d 13],
  [c 10, c 2, d 25, c 19, d 17, d 8, d 10, c 14, d 29, c 24, d 3, c 6, d 12, d 5, c 26, d 24, d 7, c 28, d 16, d 0,
   c 21, c 31, c 23, c 15, d 21, c 7],
  [d 23, c 27, d 6, d 15, c 20, c 29, c 22, d 20, c 24, c 16, c 8, d 24, d 16, d 7, c 11, c 3, d 9, d 28, d 2, d 11,
   c 15, d 4, c 25, c 7],
  [d 23, c 17, d 15, d 6, c 9, c 30, d 8, c 12, d 27, d 1, c 4, d 10, d 19, d 3, c 16, d 22, d 5, c 26, d 14, c 8,
   c 28, c 21, c 23, c 25],
  [c 17, c 27, c 9, c 10, c 29, c 22, c 24, d 22, d 14, d 5, c 26, c 18, d 7, d 26, d 0, c 31, d 9, d 18, c 13, d 2,
   c 5, d 21, d 4, d 13],
  [c 0, c 27, d 15, c 9, c 19, c 12, c 29, d 8, d 17, d 19, d 20, c 14, c 24, d 12, c 16, d 22, d 5, c 26, c 18,
   d 7, c 11, d 0, c 31, d 2, c 23, d 31, d 13, d 4],
  [c 0, c 17, c 27, d 15, c 9, d 25, c 19, c 20, c 29, c 6, d 12, d 30, c 16, d 22, d 5, c 26, d 14, c 1, d 16, d 0,
   c 31, d 18, c 13, d 2, d 11, c 15, d 31, d 4],
  [c 17, d 15, c 27, c 10, c 20, c 2, c 30, d 17, d 1, d 10, c 14, d 30, d 3, d 29, c 16, d 14, d 24, c 1, c 18,
   c 28, c 21, d 11, d 21, d 4, c 7, d 13],
  [d 23, c 17, c 2, c 19, c 29, d 10, c 22, d 20, d 29, d 3, d 12, d 14, c 8, c 18, c 28, c 11, d 16, d 0, c 21,
   c 3, c 31, d 9, d 2, d 28, c 15, d 13],
  [c 0, d 6, c 10, d 25, c 19, c 20, d 8, c 22, d 27, c 4, c 24, d 3, c 6, d 12, d 5, c 26, c 18, d 7, c 28, d 0,
   c 3, c 31, d 9, d 11, d 28, c 23, d 21, d 31, d 13, c 25],
  [d 6, c 27, c 19, c 20, c 29, d 8, d 10, d 27, c 4, d 20, d 30, d 12, c 24, d 5, c 26, d 24, c 1, c 11, d 7, c 21,
   d 26, d 2, c 23, d 11, c 5, c 25, d 4, c 7],
  [d 23, c 27, d 6, c 20, c 2, d 25, c 30, c 12, d 1, d 10, c 22, d 19, d 29, c 24, d 3, c 6, d 5, c 26, c 8, d 7,
   c 28, c 21, d 26, d 9, d 11, c 5, d 4, c 25],
  [c 27, d 6, c 9, d 25, c 29, d 8, d 10, c 22, d 3, c 6, d 22, d 5, c 26, d 24, c 28, d 0, c 21, c 3, c 31, d 9,
   d 18, c 13, d 28, d 2, c 23, d 4, c 25, c 7],
  [d 23, c 10, c 27, c 29, c 30, d 8, d 17, d 27, c 22, d 1, c 4, c 14, d 3, c 24, d 5, c 26, c 8, d 24, c 28, d 7,
   d 9, d 2, c 23, d 21, d 4, c 7],
  [d 23, c 27, d 6, c 9, d 8, c 29, c 30, d 1, d 20, c 24, d 3, d 22, c 8, c 11, d 7, d 16, c 28, d 26, d 0, c 31,
   d 2, c 23, c 5, c 15, d 4, c 25]]

def crc4B (c : BitVec 32) (d : BitVec 32) : BitVec 32 := network 32 crc4BTerms c d

def crc3BTerms : List (List Term) := [
  [d 23, c 17, c 20, d 17, c 14, c 24, c 8, d 14, c 18, d 7, d 11, d 13],
  [d 23, c 17, d 6, c 9, c 20, c 19, d 17, d 10, c 14, c 24, d 12, d 22, d 14, c 8, d 7, d 16, c 21, d 11, c 15,
   c 25],
  [d 23, c 17, d 6, c 9, d 15, c 10, d 17, d 10, c 22, c 14, c 24, d 22, c 16, d 5, c 26, d 14, c 8, d 7, d 16,
   c 21, d 9, c 15, d 21, c 25],
  [c 17, c 27, d 6, c 9, d 15, c 10, d 8, c 22, d 20, d 22, c 16, d 5, c 26, d 14, c 18, d 16, c 11, d 9, c 23,
   c 15, d 21, d 4, c 25, d 13],
  [d 23, c 27, d 15, c 10, c 20, c 19, d 17, d 8, c 12, c 14, d 20, d 19, d 3, d 12, c 16, d 5, c 26, c 8, c 28,
   c 11, d 11, c 23, d 21, d 4],
  [d 23, c 27, c 9, d 17, c 29, c 12, d 10, c 14, d 20, d 19, d 3, d 22, c 8, c 18, c 28, d 16, c 11, c 21, d 18,
   c 13, d 2, c 15, d 4, d 13],
  [c 9, d 15, c 10, c 19, c 30, c 29, c 12, d 17, d 1, c 22, d 19, c 14, d 3, d 12, d 22, c 16, d 16, c 28, d 9,
   d 18, c 13, d 2, c 15, d 21],
  [d 23, d 15, c 10, c 29, c 30, d 8, d 1, d 20, c 24, c 16, c 8, c 18, d 7, c 11, d 16, d 0, c 31, d 18, c 13, d 2,
   c 23, d 21, c 15, d 13],
  [d 23, d 6, c 9, d 15, c 20, c 19, c 30, c 12, d 1, d 20, d 19, d 12, d 22, c 16, c 8, c 18, c 11, d 0, c 31,
   d 11, d 13, c 25],
  [c 17, c 9, c 10, c 19, c 20, c 12, d 10, d 19, d 12, d 22, d 5, c 26, d 14, d 0, c 21, c 31, d 18, c 13, d 11,
   d 21],
  [d 23, c 17, c 27, c 10, c 22, d 10, d 20, c 24, d 14, c 8, d 7, c 11, c 21, d 9, d 18, c 13, d 21, d 4],
  [d 23, c 17, d 6, c 9, c 20, d 8, c 12, c 22, d 20, d 19, c 24, d 3, d 22, d 14, c 8, d 7, c 28, c 11, d 9, d 11,
   c 23, c 25],
  [d 23, c 17, d 6, c 9, c 10, c 20, d 17, c 29, d 8, c 12, d 10, c 14, d 19, d 22, d 5, c 26, d 14, c 8, c 21,
   d 18, c 13, d 11, d 2, c 23, d 21, c 25],
  [c 27, c 9, c 10, c 30, d 17, d 10, d 1, c 22, d 20, c 14, c 24, d 22, d 5, c 26, c 18, d 16, d 7, c 11, c 21,
   d 9, d 18, c 13, c 15, d 21, d 4, d 13],
  [d 15, d 6, c 10, c 27, c 19, d 8, c 12, d 17, c 22, d 20, d 19, c 14, d 3, d 12, c 16, c 28, c 11, d 16, d 0,
   d 9, c 31, c 23, d 21, c 15, c 25, d 4],
  [c 17, d 15, c 20, d 8, c 29, c 12, d 20, d 19, c 24, d 3, c 16, d 14, d 5, c 26, c 11, d 7, c 28, d 16, d 18,
   c 13, d 2, c 23, d 11, c 15],
  [d 23, c 27, d 6, d 15, c 20, c 29, c 30, c 12, d 1, d 10, d 19, c 16, c 8, c 21, d 18, c 13, d 11, d 2, d 4,
   c 25],
  [c 17, c 9, c 30, d 17, d 10, d 1, c 22, c 14, d 3, d 22, d 5, c 26, d 14, c 28, d 0, c 21, c 31, d 18, d 9, c 13],
  [c 10, c 27, c 29, d 17, d 8, c 22, c 14, c 18, d 16, d 0, d 9, c 31, d 2, c 23, d 21, c 15, d 4, d 13],
  [d 15, c 19, d 8, c 30, d 1, d 20, c 24, d 3, d 12, c 16, c 11, d 16, d 7, c 28, c 23, c 15],
  [c 17, d 15, d 6, c 20, c 12, c 29, d 19, c 24, c 16, d 14, d 7, d 0, c 31, d 2, d 11, c 25],
  [c 17, d 6, c 30, d 1, d 10, d 14, d 5, c 26, c 18, c 21, d 18, c 13, c 25, d 13],
  [d 23, c 17, c 27, c 20, c 19, c 22, c 24, d 12, d 5, c 26, d 14, c 8, d 7, d 0, c 31, d 9, d 11, d 4],
  [d 23, c 17, c 27, d 6, c 9, d 17, d 8, d 10, c 14, c 24, d 3, d 22, d 14, c 8, d 7, c 28, c 21, c 23, d 4, c 25],
  [c 0, d 6, c 9, c 10, c 29, c 22, c 24, d 3, d 22, d 5, c 26, c 18, d 16, d 7, c 28, d 9, d 2, c 15, d 21, c 25,
   d 13],
  [d 15, d 6, c 10, c 27, c 19, c 29, c 30, d 8, d 1, d 20, d 12, c 16, d 5, c 26, c 1, c 11, d 2, c 23, d 21, c 25,
   d 4],
  [d 23, c 27, c 2, d 17, c 30, c 12, d 1, c 14, d 20, d 19, d 3, d 5, c 26, c 8, c 18, c 28, c 11, d 0, c 31, d 4,
   d 13],
  [c 27, c 9, c 19, c 29, c 12, d 19, d 3, d 12, d 22, d 16, c 28, d 0, c 3, c 31, d 18, c 13, d 2, c 15, d 4],
  [d 15, c 10, c 20, c 29, c 30, d 17, d 1, c 4, c 14, d 3, c 16, c 28, d 18, c 13, d 2, d 11, d 21],
  [c 17, c 29, c 30, d 17, d 1, d 10, d 20, c 14, d 14, c 11, d 16, d 0, c 21, c 31, d 2, c 5, c 15],
  [d 15, c 30, c 12, d 1, c 22, d 19, c 6, c 16, c 18, d 16, d 0, c 31, d 9, c 15, d 13],
  [c 17, d 15, c 19, d 8, d 12, c 16, d 14, d 0, d 18, c 31, c 13, c 23, c 7]]

def crc3B (c : BitVec 32) (d : BitVec 24) : BitVec 32 := network 32 crc3BTerms c d

def crc2BTerms : List (List Term) := [
  [d 9, c 22, d 5, c 26, d 15, d 6, d 3, c 28, c 25, c 16],
  [c 17, d 15, d 6, c 27, c 29, d 8, c 22, d 3, c 16, d 14, c 28, d 9, c 23, d 2, d 4, c 25],
  [c 17, d 15, d 6, d 8, c 29, c 30, c 22, d 1, c 24, c 16, d 14, c 18, d 7, d 9, d 2, c 23, c 25, d 13],
  [c 17, d 6, c 19, d 8, c 30, d 1, c 24, d 12, d 14, d 5, c 26, c 18, d 7, d 0, c 31, c 23, d 13, c 25],
  [d 15, c 27, c 20, c 19, c 22, d 3, c 24, d 12, c 16, c 18, c 28, d 7, d 0, d 9, c 31, d 11, d 13, d 4],
  [c 17, d 15, c 19, c 20, d 8, c 29, c 22, d 10, d 12, c 16, d 5, c 26, d 14, c 21, d 9, d 2, c 23, d 11],
  [c 17, c 27, c 20, d 8, c 30, d 1, c 22, d 10, c 24, d 14, c 18, d 7, c 21, d 9, c 23, d 11, d 4, d 13],
  [d 15, c 19, d 8, d 10, c 24, d 12, c 16, d 5, c 26, c 18, d 7, d 0, c 21, c 31, c 23, d 13],
  [c 17, d 15, c 27, c 19, c 20, d 3, d 12, c 24, c 16, d 5, c 26, d 14, c 28, d 7, d 11, d 4],
  [c 17, c 27, d 6, c 20, c 29, d 10, d 3, d 14, c 18, c 28, c 21, d 2, d 11, d 4, d 13, c 25],
  [d 15, d 6, c 19, c 30, c 29, d 1, d 10, d 12, c 16, c 18, c 21, d 2, c 25, d 13],
  [c 17, d 15, d 6, c 19, c 20, c 30, d 1, d 3, d 12, c 16, d 14, c 28, d 0, c 31, d 11, c 25],
  [c 17, d 15, d 6, c 20, c 29, c 22, d 10, d 3, c 16, d 14, c 18, c 28, d 0, c 21, d 9, c 31, d 2, d 11, c 25,
   d 13],
  [c 17, c 19, d 8, c 29, c 30, d 1, d 10, c 22, d 12, d 14, d 5, c 26, c 18, c 21, d 9, d 2, c 23, d 13],
  [c 27, c 19, c 20, c 30, d 8, d 1, c 22, c 24, d 12, c 18, d 7, d 0, c 31, d 9, d 11, c 23, d 13, d 4],
  [d 6, c 20, c 19, d 8, d 10, d 12, c 24, d 3, d 7, c 28, d 0, c 21, c 31, c 23, d 11, c 25],
  [c 0, d 15, c 20, c 29, d 10, d 3, c 24, c 16, c 28, d 7, c 21, d 11, d 2],
  [c 17, d 6, c 29, c 30, d 10, d 1, c 22, d 14, c 1, c 21, d 9, d 2, c 25],
  [c 2, c 30, d 8, d 1, c 22, c 26, d 5, c 18, d 0, d 9, c 31, c 23, d 13],
  [c 27, c 19, d 8, d 12, c 24, d 7, d 0, c 3, c 31, c 23, d 4],
  [d 6, c 20, c 4, d 3, c 24, d 7, c 28, d 11, c 25],
  [d 6, c 29, d 10, c 26, d 5, c 21, c 5, d 2, c 25],
  [d 15, d 6, c 27, c 30, d 1, d 3, c 6, c 16, c 28, c 25, d 4],
  [c 17, d 15, d 6, c 29, c 22, c 16, d 14, d 0, d 9, c 31, d 2, c 25, c 7],
  [d 14, d 5, c 26, c 17, d 1, c 8, c 23, c 18, d 8, d 13, c 30],
  [c 31, c 27, c 18, c 9, d 7, c 24, d 12, c 19, d 13, d 4, d 0],
  [d 15, c 10, c 20, c 19, c 22, d 12, c 16, d 5, c 26, d 9, d 11],
  [c 17, c 27, c 20, d 8, d 10, d 14, c 11, c 21, c 23, d 11, d 4],
  [c 12, c 22, d 10, c 24, d 3, c 18, d 7, c 28, c 21, d 9, d 13],
  [d 6, c 19, d 8, c 29, c 22, d 12, c 13, d 9, d 2, c 23, c 25],
  [d 5, c 26, d 1, d 11, c 23, c 14, c 20, d 7, c 24, c 30, d 8],
  [d 10, c 31, c 27, d 6, d 7, c 24, c 15, d 4, d 0, c 21, c 25]]

def crc2B (c : BitVec 32) (d : BitVec 16) : BitVec 32 := network 32 crc2BTerms c d

def crc1BTerms : List (List Term) := [
  [d 1, d 7, c 24, c 30],
  [d 1, c 31, d 6, d 7, c 24, c 30, d 0, c 25],
  [d 1, c 31, d 5, c 26, d 6, d 7, c 24, c 30, d 0, c 25],
  [c 31, d 5, c 26, d 6, c 27, d 0, c 25, d 4],
  [d 1, d 5, c 26, c 27, d 7, c 24, d 3, c 28, c 30, d 4],
  [c 27, d 6, c 30, c 29, d 1, d 3, c 24, d 7, c 28, d 0, c 31, d 2, d 4, c 25],
  [d 6, c 30, c 29, d 1, d 3, c 26, d 5, c 28, d 0, c 31, d 2, c 25],
  [d 5, c 26, c 31, c 27, d 2, d 7, c 24, d 4, c 29, d 0],
  [c 0, d 6, c 27, d 7, c 24, d 3, c 28, c 25, d 4],
  [d 5, c 26, d 6, d 2, c 1, d 3, c 28, c 25, c 29],
  [d 5, c 26, c 27, d 2, d 7, c 24, c 2, d 4, c 29],
  [d 6, c 27, d 7, c 24, d 3, c 28, c 25, d 4, c 3],
  [d 6, c 29, c 30, d 1, c 4, d 3, c 24, c 26, d 5, d 7, c 28, d 2, c 25],
  [d 6, c 27, c 30, c 29, d 1, c 26, d 5, d 0, c 31, c 5, d 2, d 4, c 25],
  [d 5, c 26, d 1, c 31, c 27, d 3, c 28, c 6, d 4, c 30, d 0],
  [c 31, c 27, d 2, d 3, c 28, d 4, c 29, d 0, c 7],
  [c 8, d 2, d 7, c 24, d 3, c 28, c 29],
  [d 1, d 6, d 2, c 9, c 25, c 29, c 30],
  [d 5, c 26, d 1, c 31, c 10, c 30, d 0],
  [c 31, c 27, c 11, d 4, d 0],
  [d 3, c 28, c 12],
  [c 13, d 2, c 29],
  [c 14, d 7, c 24],
  [d 1, d 6, d 7, c 24, c 15, c 30, c 25],
  [c 31, d 5, c 26, d 6, d 0, c 25, c 16],
  [d 5, c 26, c 17, c 27, d 4],
  [d 1, c 27, c 18, d 7, c 24, d 3, c 28, c 30, d 4],
  [c 31, d 6, d 2, d 3, c 28, c 19, d 0, c 25, c 29],
  [d 5, c 26, d 1, d 2, c 20, c 29, c 30],
  [d 1, c 31, c 27, d 4, c 30, d 0, c 21],
  [c 31, c 22, d 3, c 28, d 0],
  [d 2, c 23, c 29]]

def crc1B (c : BitVec 32) (d : BitVec 8) : BitVec 32 := network 32 crc1BTerms c d

/-! ## The plain register -/

/-- The register after a string of bytes. -/
def crcBytes (c : BitVec 32) (bs : List Byte) : BitVec 32 := divide generator8023 c (serial bs)

@[simp] theorem crcBytes_nil (c : BitVec 32) : crcBytes c [] = c := rfl

theorem crcBytes_append (c : BitVec 32) (bs bs' : List Byte) :
    crcBytes c (bs ++ bs') = crcBytes (crcBytes c bs) bs' := by
  rw [crcBytes, serial_append, divide_append, ← crcBytes, ← crcBytes]

/-- Taps checked against the forms of the register. -/
theorem network_eq_crcBytes {rows : List (List Term)} {n : ℕ}
    (same : rows.map maskOf = divideMasks ((List.range 32).map generator8023.getLsbD) (8 * n)) (c : BitVec 32) (d : BitVec (8 * n)) :
    network 32 rows c d = crcBytes c (bytes n d) := by
  rw [crcBytes, serial_bytes]
  exact network_eq_divide (by decide) same c d

theorem crc8B_eq (c : BitVec 32) (d : BitVec 64) : crc8B c d = crcBytes c (bytes 8 d) :=
  network_eq_crcBytes (n := 8) (by decide +kernel) c d

theorem crc7B_eq (c : BitVec 32) (d : BitVec 56) : crc7B c d = crcBytes c (bytes 7 d) :=
  network_eq_crcBytes (n := 7) (by decide +kernel) c d

theorem crc6B_eq (c : BitVec 32) (d : BitVec 48) : crc6B c d = crcBytes c (bytes 6 d) :=
  network_eq_crcBytes (n := 6) (by decide +kernel) c d

theorem crc5B_eq (c : BitVec 32) (d : BitVec 40) : crc5B c d = crcBytes c (bytes 5 d) :=
  network_eq_crcBytes (n := 5) (by decide +kernel) c d

theorem crc4B_eq (c : BitVec 32) (d : BitVec 32) : crc4B c d = crcBytes c (bytes 4 d) :=
  network_eq_crcBytes (n := 4) (by decide +kernel) c d

theorem crc3B_eq (c : BitVec 32) (d : BitVec 24) : crc3B c d = crcBytes c (bytes 3 d) :=
  network_eq_crcBytes (n := 3) (by decide +kernel) c d

theorem crc2B_eq (c : BitVec 32) (d : BitVec 16) : crc2B c d = crcBytes c (bytes 2 d) :=
  network_eq_crcBytes (n := 2) (by decide +kernel) c d

theorem crc1B_eq (c : BitVec 32) (d : BitVec 8) : crc1B c d = crcBytes c (bytes 1 d) :=
  network_eq_crcBytes (n := 1) (by decide +kernel) c d

/-! On the lowest bytes of a word of eight. -/

theorem bytes_low (n : ℕ) (d : BitVec 64) {q : ℕ} (size : q = 8 * n) (small : n ≤ 8) :
    bytes n (d.extractLsb' 0 q) = (bytes 8 d).take n :=
  bytes_extract 0 n d rfl size 8 (by omega)

theorem crc7B_low (c : BitVec 32) (d : BitVec 64) :
    crc7B c (d.extractLsb' 0 56) = crcBytes c ((bytes 8 d).take 7) := by
  rw [crc7B_eq, bytes_low 7 d rfl (by decide)]

theorem crc6B_low (c : BitVec 32) (d : BitVec 64) :
    crc6B c (d.extractLsb' 0 48) = crcBytes c ((bytes 8 d).take 6) := by
  rw [crc6B_eq, bytes_low 6 d rfl (by decide)]

theorem crc5B_low (c : BitVec 32) (d : BitVec 64) :
    crc5B c (d.extractLsb' 0 40) = crcBytes c ((bytes 8 d).take 5) := by
  rw [crc5B_eq, bytes_low 5 d rfl (by decide)]

theorem crc4B_low (c : BitVec 32) (d : BitVec 64) :
    crc4B c (d.extractLsb' 0 32) = crcBytes c ((bytes 8 d).take 4) := by
  rw [crc4B_eq, bytes_low 4 d rfl (by decide)]

theorem crc3B_low (c : BitVec 32) (d : BitVec 64) :
    crc3B c (d.extractLsb' 0 24) = crcBytes c ((bytes 8 d).take 3) := by
  rw [crc3B_eq, bytes_low 3 d rfl (by decide)]

theorem crc2B_low (c : BitVec 32) (d : BitVec 64) :
    crc2B c (d.extractLsb' 0 16) = crcBytes c ((bytes 8 d).take 2) := by
  rw [crc2B_eq, bytes_low 2 d rfl (by decide)]

theorem crc1B_low (c : BitVec 32) (d : BitVec 64) :
    crc1B c (d.extractLsb' 0 8) = crcBytes c ((bytes 8 d).take 1) := by
  rw [crc1B_eq, bytes_low 1 d rfl (by decide)]

/-! ## The check sequence of a frame -/

/-- Bit `i` of the result is bit `31 - i`. -/
def crcRev (crc : BitVec 32) : BitVec 32 := crc.reverse

/-- The four bytes sent after a frame. -/
def fcs (frame : List Byte) : List Byte := bytes 4 (~~~crcRev (crcBytes crc8023Preset frame))

@[simp] theorem length_fcs (frame : List Byte) : (fcs frame).length = 4 := length_bytes 4 _

/-- What the register holds after a frame with its check sequence. -/
def residue : BitVec 32 := 0xc704dd7b#32

theorem crcRev_crcRev (crc : BitVec 32) : crcRev (crcRev crc) = crc := BitVec.reverse_reverse_eq

/-- On the line a reversed register goes out highest bit first. -/
theorem serial_bytes_rev (r : BitVec 32) : serial (bytes 4 r) = bitsOf (crcRev r) := by
  rw [serial_bytes, bitsOf]
  apply List.map_congr_left
  intro i _
  rw [crcRev, BitVec.getMsbD_reverse]

theorem crcRev_not (crc : BitVec 32) : crcRev (~~~crc) = ~~~crcRev crc := by
  apply BitVec.eq_of_getLsbD_eq
  intro i inside
  rw [crcRev, BitVec.getLsbD_reverse, BitVec.getMsbD_not, BitVec.getLsbD_not, crcRev, BitVec.getLsbD_reverse]

/-- The register comes to the residue with the check sequence of what it holds, and with no other four bytes. -/
theorem crcBytes_eq_residue_iff (crc r : BitVec 32) : crcBytes crc (bytes 4 r) = residue ↔ r = ~~~crcRev crc := by
  have ones : divide generator8023 0#32 (bitsOf (BitVec.allOnes 32)) = residue := by decide +kernel
  -- a division by the complement, since the check sequence is sent complemented
  have both : divide generator8023 crc (bitsOf (~~~crcRev r)) = crcBytes crc (bytes 4 r) ^^^ residue := by
    rw [← BitVec.xor_allOnes, bitsOf_xor, ← BitVec.xor_zero (x := crc),
      divide_xor _ _ _ (by rw [length_bitsOf, length_bitsOf]), BitVec.xor_zero, ones, crcBytes, serial_bytes_rev]
  have own := divide_bitsOf_iff (g := generator8023) (by decide) crc (~~~crcRev r)
  rw [both] at own
  rw [← BitVec.xor_eq_zero_iff]
  apply own.trans
  constructor
  · intro same
    rw [same, crcRev_not, crcRev_crcRev, BitVec.not_not]
  · intro same
    rw [same, crcRev_not, crcRev_crcRev, BitVec.not_not]

/-- **The eight networks are one division**: each takes the register where the bits of its bytes take it one after the
other, in the order of the line. -/
theorem crc_networks (c : BitVec 32) (d : BitVec 64) :
    crc8B c d = crcBytes c (bytes 8 d) ∧
      crc7B c (d.extractLsb' 0 56) = crcBytes c ((bytes 8 d).take 7) ∧
      crc6B c (d.extractLsb' 0 48) = crcBytes c ((bytes 8 d).take 6) ∧
      crc5B c (d.extractLsb' 0 40) = crcBytes c ((bytes 8 d).take 5) ∧
      crc4B c (d.extractLsb' 0 32) = crcBytes c ((bytes 8 d).take 4) ∧
      crc3B c (d.extractLsb' 0 24) = crcBytes c ((bytes 8 d).take 3) ∧
      crc2B c (d.extractLsb' 0 16) = crcBytes c ((bytes 8 d).take 2) ∧
      crc1B c (d.extractLsb' 0 8) = crcBytes c ((bytes 8 d).take 1) :=
  ⟨crc8B_eq c d, crc7B_low c d, crc6B_low c d, crc5B_low c d, crc4B_low c d, crc3B_low c d, crc2B_low c d,
    crc1B_low c d⟩

end Zcu102.Nfmac
