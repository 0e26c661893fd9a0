/-! The marks and format characters with the Grapheme_Extend property of Unicode 17.0: combining
marks, enclosing marks, the spacing marks that extend a grapheme, variation selectors, the zero
width non-joiner and the tag characters. The two halfwidth katakana sound marks, which are letters
and stand by themselves in halfwidth text, are not among them. The table lists half-open ranges of
code points in increasing order. -/

namespace ChunkRuntime.Text

/-- Half-open code point ranges with the Grapheme_Extend property. -/
def extendRanges : List (Nat × Nat) := [
  (768, 880), (1155, 1162), (1425, 1470), (1471, 1472), (1473, 1475), (1476, 1478), (1479, 1480),
  (1552, 1563), (1611, 1632), (1648, 1649), (1750, 1757), (1759, 1765), (1767, 1769), (1770, 1774),
  (1809, 1810), (1840, 1867), (1958, 1969), (2027, 2036), (2045, 2046), (2070, 2074), (2075, 2084),
  (2085, 2088), (2089, 2094), (2137, 2140), (2199, 2208), (2250, 2274), (2275, 2307), (2362, 2363),
  (2364, 2365), (2369, 2377), (2381, 2382), (2385, 2392), (2402, 2404), (2433, 2434), (2492, 2493),
  (2494, 2495), (2497, 2501), (2509, 2510), (2519, 2520), (2530, 2532), (2558, 2559), (2561, 2563),
  (2620, 2621), (2625, 2627), (2631, 2633), (2635, 2638), (2641, 2642), (2672, 2674), (2677, 2678),
  (2689, 2691), (2748, 2749), (2753, 2758), (2759, 2761), (2765, 2766), (2786, 2788), (2810, 2816),
  (2817, 2818), (2876, 2877), (2878, 2880), (2881, 2885), (2893, 2894), (2901, 2904), (2914, 2916),
  (2946, 2947), (3006, 3007), (3008, 3009), (3021, 3022), (3031, 3032), (3072, 3073), (3076, 3077),
  (3132, 3133), (3134, 3137), (3142, 3145), (3146, 3150), (3157, 3159), (3170, 3172), (3201, 3202),
  (3260, 3261), (3263, 3265), (3266, 3267), (3270, 3273), (3274, 3278), (3285, 3287), (3298, 3300),
  (3328, 3330), (3387, 3389), (3390, 3391), (3393, 3397), (3405, 3406), (3415, 3416), (3426, 3428),
  (3457, 3458), (3530, 3531), (3535, 3536), (3538, 3541), (3542, 3543), (3551, 3552), (3633, 3634),
  (3636, 3643), (3655, 3663), (3761, 3762), (3764, 3773), (3784, 3791), (3864, 3866), (3893, 3894),
  (3895, 3896), (3897, 3898), (3953, 3967), (3968, 3973), (3974, 3976), (3981, 3992), (3993, 4029),
  (4038, 4039), (4141, 4145), (4146, 4152), (4153, 4155), (4157, 4159), (4184, 4186), (4190, 4193),
  (4209, 4213), (4226, 4227), (4229, 4231), (4237, 4238), (4253, 4254), (4957, 4960), (5906, 5910),
  (5938, 5941), (5970, 5972), (6002, 6004), (6068, 6070), (6071, 6078), (6086, 6087), (6089, 6100),
  (6109, 6110), (6155, 6158), (6159, 6160), (6277, 6279), (6313, 6314), (6432, 6435), (6439, 6441),
  (6450, 6451), (6457, 6460), (6679, 6681), (6683, 6684), (6742, 6743), (6744, 6751), (6752, 6753),
  (6754, 6755), (6757, 6765), (6771, 6781), (6783, 6784), (6832, 6878), (6880, 6892), (6912, 6916),
  (6964, 6974), (6978, 6981), (7019, 7028), (7040, 7042), (7074, 7078), (7080, 7086), (7142, 7143),
  (7144, 7146), (7149, 7150), (7151, 7156), (7212, 7220), (7222, 7224), (7376, 7379), (7380, 7393),
  (7394, 7401), (7405, 7406), (7412, 7413), (7416, 7418), (7616, 7680), (8204, 8205), (8400, 8433),
  (11503, 11506), (11647, 11648), (11744, 11776), (12330, 12336), (12441, 12443), (42607, 42611),
  (42612, 42622), (42654, 42656), (42736, 42738), (43010, 43011), (43014, 43015), (43019, 43020),
  (43045, 43047), (43052, 43053), (43204, 43206), (43232, 43250), (43263, 43264), (43302, 43310),
  (43335, 43346), (43347, 43348), (43392, 43395), (43443, 43444), (43446, 43450), (43452, 43454),
  (43456, 43457), (43493, 43494), (43561, 43567), (43569, 43571), (43573, 43575), (43587, 43588),
  (43596, 43597), (43644, 43645), (43696, 43697), (43698, 43701), (43703, 43705), (43710, 43712),
  (43713, 43714), (43756, 43758), (43766, 43767), (44005, 44006), (44008, 44009), (44013, 44014),
  (64286, 64287), (65024, 65040), (65056, 65072), (66045, 66046), (66272, 66273), (66422, 66427),
  (68097, 68100), (68101, 68103), (68108, 68112), (68152, 68155), (68159, 68160), (68325, 68327),
  (68900, 68904), (68969, 68974), (69291, 69293), (69370, 69376), (69446, 69457), (69506, 69510),
  (69633, 69634), (69688, 69703), (69744, 69745), (69747, 69749), (69759, 69762), (69811, 69815),
  (69817, 69819), (69826, 69827), (69888, 69891), (69927, 69932), (69933, 69941), (70003, 70004),
  (70016, 70018), (70070, 70079), (70080, 70081), (70089, 70093), (70095, 70096), (70191, 70194),
  (70196, 70200), (70206, 70207), (70209, 70210), (70367, 70368), (70371, 70379), (70400, 70402),
  (70459, 70461), (70462, 70463), (70464, 70465), (70477, 70478), (70487, 70488), (70502, 70509),
  (70512, 70517), (70584, 70585), (70587, 70593), (70594, 70595), (70597, 70598), (70599, 70602),
  (70606, 70609), (70610, 70611), (70625, 70627), (70712, 70720), (70722, 70725), (70726, 70727),
  (70750, 70751), (70832, 70833), (70835, 70841), (70842, 70843), (70845, 70846), (70847, 70849),
  (70850, 70852), (71087, 71088), (71090, 71094), (71100, 71102), (71103, 71105), (71132, 71134),
  (71219, 71227), (71229, 71230), (71231, 71233), (71339, 71340), (71341, 71342), (71344, 71352),
  (71453, 71454), (71455, 71456), (71458, 71462), (71463, 71468), (71727, 71736), (71737, 71739),
  (71984, 71985), (71995, 71999), (72003, 72004), (72148, 72152), (72154, 72156), (72160, 72161),
  (72193, 72203), (72243, 72249), (72251, 72255), (72263, 72264), (72273, 72279), (72281, 72284),
  (72330, 72343), (72344, 72346), (72544, 72545), (72546, 72549), (72550, 72551), (72752, 72759),
  (72760, 72766), (72767, 72768), (72850, 72872), (72874, 72881), (72882, 72884), (72885, 72887),
  (73009, 73015), (73018, 73019), (73020, 73022), (73023, 73030), (73031, 73032), (73104, 73106),
  (73109, 73110), (73111, 73112), (73459, 73461), (73472, 73474), (73526, 73531), (73536, 73539),
  (73562, 73563), (78912, 78913), (78919, 78934), (90398, 90410), (90413, 90416), (92912, 92917),
  (92976, 92983), (94031, 94032), (94095, 94099), (94180, 94181), (94192, 94194), (113821, 113823),
  (118528, 118574), (118576, 118599), (119141, 119146), (119149, 119155), (119163, 119171),
  (119173, 119180), (119210, 119214), (119362, 119365), (121344, 121399), (121403, 121453),
  (121461, 121462), (121476, 121477), (121499, 121504), (121505, 121520), (122880, 122887),
  (122888, 122905), (122907, 122914), (122915, 122917), (122918, 122923), (123023, 123024),
  (123184, 123191), (123566, 123567), (123628, 123632), (124140, 124144), (124398, 124400),
  (124643, 124644), (124646, 124647), (124654, 124656), (124661, 124662), (125136, 125143),
  (125252, 125259), (917536, 917632), (917760, 918000)]

/-- The character extends the grapheme before it. -/
def isGraphemeExtend (c : Char) : Bool :=
  extendRanges.any fun r => r.1 ≤ c.toNat && c.toNat < r.2

end ChunkRuntime.Text
