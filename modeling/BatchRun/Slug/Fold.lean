/-!
# Folding characters to letters and digits

Folding decomposes a character, drops the accents and lowers the case; what is then neither an
ASCII letter nor a digit separates words. An accent of its own folds to nothing.

* `Slug.fold`: **what a character folds to**: lower-case letters, digits, and `-` for a separator;
* the tables list all characters outside ASCII that do not fold to a separator.
-/

namespace BatchRun

namespace Slug

/-- Characters from U+00AA on that fold to one letter or digit, by runs of code points. -/
def lettersFirst : List (Nat × String) :=
  [(0xaa, "a"), (0xb2, "23-----1o"),
   (0xc0, "aaaaaa-ceeeeiiii-nooooo--uuuuy--aaaaaa-ceeeeiiii-nooooo--uuuuy-yaaaaaa"),
   (0x106, "ccccccccdd--eeeeeeeeeegggggggghh--iiiiiiiii"), (0x134, "jjkk-llllll"),
   (0x143, "nnnnnn"), (0x14c, "oooooo--rrrrrrsssssssstttt--uuuuuuuuuuuuwwyyyzzzzzzs"),
   (0x1a0, "oo"), (0x1af, "uu"), (0x1cd, "aaiioouuuuuuuuuu-aaaa----ggkkoooo--j"),
   (0x1f4, "gg--nnaa----aaaaeeeeiiiioooorrrruuuusstt--hh"), (0x226, "aaeeooooooooyy"),
   (0x2b0, "h-jr---wy"), (0x2e1, "lsx"),
   (0x1d2c, "a-b-de-ghijklmn-o-prtuwa---bde---g-km-o---ptu--v"), (0x1d62, "iruv"),
   (0x1d9c, "c---f"), (0x1dbb, "z"),
   (0x1e00, "aabbbbbbccddddddddddeeeeeeeeeeffgghhhhhhhhhhiiiikkkkkkllllllllmmmmmmnn"),
   (0x1e46, "nnnnnnoooooooopppprrrrrrrrssssssssssttttttttuuuuuuuuuuvvvvwwwwwwwwwwxx"),
   (0x1e8c, "xxyyzzzzzzhtwy"),
   (0x1e9b, "s----aaaaaaaaaaaaaaaaaaaaaaaaeeeeeeeeeeeeeeeeiiiiooooooooooooooooooooo"),
   (0x1ee1, "ooouuuuuuuuuuuuuuyyyyyyyy"), (0x2070, "0i--456789-----n0123456789"),
   (0x2090, "aeox-hklmnpst"), (0x2102, "c"), (0x210a, "ghhhh-iill-n"), (0x2119, "pqrrr"),
   (0x2124, "z---z-kabc-eef-mo----i"), (0x2145, "ddeij"), (0x2160, "i"), (0x2164, "v"),
   (0x2169, "x"), (0x216c, "lcdmi"), (0x2174, "v"), (0x2179, "x"), (0x217c, "lcdm"),
   (0x2460, "123456789"), (0x24b6, "abcdefghijklmnopqrstuvwxyzabcdefghijklmnopqrstuvwxyz0"),
   (0x2c7c, "jv"), (0xa7f2, "cfq"), (0xff10, "0123456789"),
   (0xff21, "abcdefghijklmnopqrstuvwxyz"), (0xff41, "abcdefghijklmnopqrstuvwxyz"),
   (0x107a5, "q"), (0x1ccd6, "abcdefghijklmnopqrstuvwxyz0123456789"),
   (0x1d400, "abcdefghijklmnopqrstuvwxyzabcdefghijklmnopqrstuvwxyzabcdefghijklmnopqr"),
   (0x1d446, "stuvwxyzabcdefg-ijklmnopqrstuvwxyzabcdefghijklmnopqrstuvwxyzabcdefghij"),
   (0x1d48c, "klmnopqrstuvwxyza-cd--g--jk--nopq-stuvwxyzabcd-f-hijklmn-pqrstuvwxyzab"),
   (0x1d4d2, "cdefghijklmnopqrstuvwxyzabcdefghijklmnopqrstuvwxyzab-defg--jklmnopq-st"),
   (0x1d518, "uvwxy-abcdefghijklmnopqrstuvwxyzab-defg-ijklm-o---stuvwxy-abcdefghijkl"),
   (0x1d55e, "mnopqrstuvwxyzabcdefghijklmnopqrstuvwxyzabcdefghijklmnopqrstuvwxyzabcd"),
   (0x1d5a4, "efghijklmnopqrstuvwxyzabcdefghijklmnopqrstuvwxyzabcdefghijklmnopqrstuv"),
   (0x1d5ea, "wxyzabcdefghijklmnopqrstuvwxyzabcdefghijklmnopqrstuvwxyzabcdefghijklmn"),
   (0x1d630, "opqrstuvwxyzabcdefghijklmnopqrstuvwxyzabcdefghijklmnopqrstuvwxyzabcdef"),
   (0x1d676, "ghijklmnopqrstuvwxyzabcdefghijklmnopqrstuvwxyz"),
   (0x1d7ce, "01234567890123456789012345678901234567890123456789"), (0x1f12b, "cr"),
   (0x1f130, "abcdefghijklmnopqrstuvwxyz"), (0x1fbf0, "0123456789")]

/-- Characters from U+00BC on that fold to more than one character. -/
def wordsFirst : List (Nat × String) :=
  [(0xbc, "1-4"), (0xbd, "1-2"), (0xbe, "3-4"), (0x132, "ij"), (0x133, "ij"), (0x13f, "l-"),
   (0x140, "l-"), (0x149, "-n"), (0x1c4, "dz"), (0x1c5, "dz"), (0x1c6, "dz"), (0x1c7, "lj"),
   (0x1c8, "lj"), (0x1c9, "lj"), (0x1ca, "nj"), (0x1cb, "nj"), (0x1cc, "nj"), (0x1f1, "dz"),
   (0x1f2, "dz"), (0x1f3, "dz"), (0x1e9a, "a-"), (0x20a8, "rs"), (0x2100, "a-c"),
   (0x2101, "a-s"), (0x2103, "-c"), (0x2105, "c-o"), (0x2106, "c-u"), (0x2109, "-f"),
   (0x2116, "no"), (0x2120, "sm"), (0x2121, "tel"), (0x2122, "tm"), (0x213b, "fax"),
   (0x2150, "1-7"), (0x2151, "1-9"), (0x2152, "1-10"), (0x2153, "1-3"), (0x2154, "2-3"),
   (0x2155, "1-5"), (0x2156, "2-5"), (0x2157, "3-5"), (0x2158, "4-5"), (0x2159, "1-6"),
   (0x215a, "5-6"), (0x215b, "1-8"), (0x215c, "3-8"), (0x215d, "5-8"), (0x215e, "7-8"),
   (0x215f, "1-"), (0x2161, "ii"), (0x2162, "iii"), (0x2163, "iv"), (0x2165, "vi"),
   (0x2166, "vii"), (0x2167, "viii"), (0x2168, "ix"), (0x216a, "xi"), (0x216b, "xii"),
   (0x2171, "ii"), (0x2172, "iii"), (0x2173, "iv"), (0x2175, "vi"), (0x2176, "vii"),
   (0x2177, "viii"), (0x2178, "ix"), (0x217a, "xi"), (0x217b, "xii"), (0x2189, "0-3"),
   (0x2469, "10"), (0x246a, "11"), (0x246b, "12"), (0x246c, "13"), (0x246d, "14"),
   (0x246e, "15"), (0x246f, "16"), (0x2470, "17"), (0x2471, "18"), (0x2472, "19"),
   (0x2473, "20"), (0x2474, "-1-"), (0x2475, "-2-"), (0x2476, "-3-"), (0x2477, "-4-"),
   (0x2478, "-5-"), (0x2479, "-6-"), (0x247a, "-7-"), (0x247b, "-8-"), (0x247c, "-9-"),
   (0x247d, "-10-"), (0x247e, "-11-"), (0x247f, "-12-"), (0x2480, "-13-"), (0x2481, "-14-"),
   (0x2482, "-15-"), (0x2483, "-16-"), (0x2484, "-17-"), (0x2485, "-18-"), (0x2486, "-19-"),
   (0x2487, "-20-"), (0x2488, "1-"), (0x2489, "2-"), (0x248a, "3-"), (0x248b, "4-"),
   (0x248c, "5-"), (0x248d, "6-"), (0x248e, "7-"), (0x248f, "8-"), (0x2490, "9-"),
   (0x2491, "10-"), (0x2492, "11-"), (0x2493, "12-"), (0x2494, "13-"), (0x2495, "14-"),
   (0x2496, "15-"), (0x2497, "16-"), (0x2498, "17-"), (0x2499, "18-"), (0x249a, "19-"),
   (0x249b, "20-"), (0x249c, "-a-"), (0x249d, "-b-"), (0x249e, "-c-"), (0x249f, "-d-"),
   (0x24a0, "-e-"), (0x24a1, "-f-"), (0x24a2, "-g-"), (0x24a3, "-h-"), (0x24a4, "-i-"),
   (0x24a5, "-j-"), (0x24a6, "-k-"), (0x24a7, "-l-"), (0x24a8, "-m-"), (0x24a9, "-n-"),
   (0x24aa, "-o-"), (0x24ab, "-p-"), (0x24ac, "-q-"), (0x24ad, "-r-"), (0x24ae, "-s-"),
   (0x24af, "-t-"), (0x24b0, "-u-"), (0x24b1, "-v-"), (0x24b2, "-w-"), (0x24b3, "-x-"),
   (0x24b4, "-y-"), (0x24b5, "-z-"), (0x3250, "pte"), (0x3251, "21"), (0x3252, "22"),
   (0x3253, "23"), (0x3254, "24")]

/-- Characters from U+3255 on that fold to more than one character. -/
def wordsSecond : List (Nat × String) :=
  [(0x3255, "25"), (0x3256, "26"), (0x3257, "27"), (0x3258, "28"), (0x3259, "29"),
   (0x325a, "30"), (0x325b, "31"), (0x325c, "32"), (0x325d, "33"), (0x325e, "34"),
   (0x325f, "35"), (0x32b1, "36"), (0x32b2, "37"), (0x32b3, "38"), (0x32b4, "39"),
   (0x32b5, "40"), (0x32b6, "41"), (0x32b7, "42"), (0x32b8, "43"), (0x32b9, "44"),
   (0x32ba, "45"), (0x32bb, "46"), (0x32bc, "47"), (0x32bd, "48"), (0x32be, "49"),
   (0x32bf, "50"), (0x32c0, "1-"), (0x32c1, "2-"), (0x32c2, "3-"), (0x32c3, "4-"),
   (0x32c4, "5-"), (0x32c5, "6-"), (0x32c6, "7-"), (0x32c7, "8-"), (0x32c8, "9-"),
   (0x32c9, "10-"), (0x32ca, "11-"), (0x32cb, "12-"), (0x32cc, "hg"), (0x32cd, "erg"),
   (0x32ce, "ev"), (0x32cf, "ltd"), (0x3358, "0-"), (0x3359, "1-"), (0x335a, "2-"),
   (0x335b, "3-"), (0x335c, "4-"), (0x335d, "5-"), (0x335e, "6-"), (0x335f, "7-"),
   (0x3360, "8-"), (0x3361, "9-"), (0x3362, "10-"), (0x3363, "11-"), (0x3364, "12-"),
   (0x3365, "13-"), (0x3366, "14-"), (0x3367, "15-"), (0x3368, "16-"), (0x3369, "17-"),
   (0x336a, "18-"), (0x336b, "19-"), (0x336c, "20-"), (0x336d, "21-"), (0x336e, "22-"),
   (0x336f, "23-"), (0x3370, "24-"), (0x3371, "hpa"), (0x3372, "da"), (0x3373, "au"),
   (0x3374, "bar"), (0x3375, "ov"), (0x3376, "pc"), (0x3377, "dm"), (0x3378, "dm2"),
   (0x3379, "dm3"), (0x337a, "iu"), (0x3380, "pa"), (0x3381, "na"), (0x3382, "-a"),
   (0x3383, "ma"), (0x3384, "ka"), (0x3385, "kb"), (0x3386, "mb"), (0x3387, "gb"),
   (0x3388, "cal"), (0x3389, "kcal"), (0x338a, "pf"), (0x338b, "nf"), (0x338c, "-f"),
   (0x338d, "-g"), (0x338e, "mg"), (0x338f, "kg"), (0x3390, "hz"), (0x3391, "khz"),
   (0x3392, "mhz"), (0x3393, "ghz"), (0x3394, "thz"), (0x3395, "-l"), (0x3396, "ml"),
   (0x3397, "dl"), (0x3398, "kl"), (0x3399, "fm"), (0x339a, "nm"), (0x339b, "-m"),
   (0x339c, "mm"), (0x339d, "cm"), (0x339e, "km"), (0x339f, "mm2"), (0x33a0, "cm2"),
   (0x33a1, "m2"), (0x33a2, "km2"), (0x33a3, "mm3"), (0x33a4, "cm3"), (0x33a5, "m3"),
   (0x33a6, "km3"), (0x33a7, "m-s"), (0x33a8, "m-s2"), (0x33a9, "pa"), (0x33aa, "kpa"),
   (0x33ab, "mpa"), (0x33ac, "gpa"), (0x33ad, "rad"), (0x33ae, "rad-s"), (0x33af, "rad-s2"),
   (0x33b0, "ps"), (0x33b1, "ns"), (0x33b2, "-s"), (0x33b3, "ms"), (0x33b4, "pv"),
   (0x33b5, "nv"), (0x33b6, "-v"), (0x33b7, "mv"), (0x33b8, "kv"), (0x33b9, "mv"),
   (0x33ba, "pw"), (0x33bb, "nw"), (0x33bc, "-w"), (0x33bd, "mw"), (0x33be, "kw"),
   (0x33bf, "mw"), (0x33c0, "k-"), (0x33c1, "m-"), (0x33c2, "a-m-"), (0x33c3, "bq"),
   (0x33c4, "cc"), (0x33c5, "cd"), (0x33c6, "c-kg"), (0x33c7, "co-"), (0x33c8, "db")]

/-- Characters from U+33C9 on that fold to more than one character. -/
def wordsThird : List (Nat × String) :=
  [(0x33c9, "gy"), (0x33ca, "ha"), (0x33cb, "hp"), (0x33cc, "in"), (0x33cd, "kk"),
   (0x33ce, "km"), (0x33cf, "kt"), (0x33d0, "lm"), (0x33d1, "ln"), (0x33d2, "log"),
   (0x33d3, "lx"), (0x33d4, "mb"), (0x33d5, "mil"), (0x33d6, "mol"), (0x33d7, "ph"),
   (0x33d8, "p-m-"), (0x33d9, "ppm"), (0x33da, "pr"), (0x33db, "sr"), (0x33dc, "sv"),
   (0x33dd, "wb"), (0x33de, "v-m"), (0x33df, "a-m"), (0x33e0, "1-"), (0x33e1, "2-"),
   (0x33e2, "3-"), (0x33e3, "4-"), (0x33e4, "5-"), (0x33e5, "6-"), (0x33e6, "7-"),
   (0x33e7, "8-"), (0x33e8, "9-"), (0x33e9, "10-"), (0x33ea, "11-"), (0x33eb, "12-"),
   (0x33ec, "13-"), (0x33ed, "14-"), (0x33ee, "15-"), (0x33ef, "16-"), (0x33f0, "17-"),
   (0x33f1, "18-"), (0x33f2, "19-"), (0x33f3, "20-"), (0x33f4, "21-"), (0x33f5, "22-"),
   (0x33f6, "23-"), (0x33f7, "24-"), (0x33f8, "25-"), (0x33f9, "26-"), (0x33fa, "27-"),
   (0x33fb, "28-"), (0x33fc, "29-"), (0x33fd, "30-"), (0x33fe, "31-"), (0x33ff, "gal"),
   (0xfb00, "ff"), (0xfb01, "fi"), (0xfb02, "fl"), (0xfb03, "ffi"), (0xfb04, "ffl"),
   (0xfb05, "st"), (0xfb06, "st"), (0x1f100, "0-"), (0x1f101, "0-"), (0x1f102, "1-"),
   (0x1f103, "2-"), (0x1f104, "3-"), (0x1f105, "4-"), (0x1f106, "5-"), (0x1f107, "6-"),
   (0x1f108, "7-"), (0x1f109, "8-"), (0x1f10a, "9-"), (0x1f110, "-a-"), (0x1f111, "-b-"),
   (0x1f112, "-c-"), (0x1f113, "-d-"), (0x1f114, "-e-"), (0x1f115, "-f-"), (0x1f116, "-g-"),
   (0x1f117, "-h-"), (0x1f118, "-i-"), (0x1f119, "-j-"), (0x1f11a, "-k-"), (0x1f11b, "-l-"),
   (0x1f11c, "-m-"), (0x1f11d, "-n-"), (0x1f11e, "-o-"), (0x1f11f, "-p-"), (0x1f120, "-q-"),
   (0x1f121, "-r-"), (0x1f122, "-s-"), (0x1f123, "-t-"), (0x1f124, "-u-"), (0x1f125, "-v-"),
   (0x1f126, "-w-"), (0x1f127, "-x-"), (0x1f128, "-y-"), (0x1f129, "-z-"), (0x1f12a, "-s-"),
   (0x1f12d, "cd"), (0x1f12e, "wz"), (0x1f14a, "hv"), (0x1f14b, "mv"), (0x1f14c, "sd"),
   (0x1f14d, "ss"), (0x1f14e, "ppv"), (0x1f14f, "wc"), (0x1f16a, "mc"), (0x1f16b, "md"),
   (0x1f16c, "mr"), (0x1f190, "dj")]

/-- Accents from U+0300 on, as closed ranges. -/
def accentsFirst : List (Nat × Nat) :=
  [(0x300, 0x36f), (0x483, 0x489), (0x591, 0x5bd), (0x5bf, 0x5bf), (0x5c1, 0x5c2),
   (0x5c4, 0x5c5), (0x5c7, 0x5c7), (0x610, 0x61a), (0x64b, 0x65f), (0x670, 0x670),
   (0x6d6, 0x6dc), (0x6df, 0x6e4), (0x6e7, 0x6e8), (0x6ea, 0x6ed), (0x711, 0x711),
   (0x730, 0x74a), (0x7a6, 0x7b0), (0x7eb, 0x7f3), (0x7fd, 0x7fd), (0x816, 0x819),
   (0x81b, 0x823), (0x825, 0x827), (0x829, 0x82d), (0x859, 0x85b), (0x897, 0x89f),
   (0x8ca, 0x8e1), (0x8e3, 0x903), (0x93a, 0x93c), (0x93e, 0x94f), (0x951, 0x957),
   (0x962, 0x963), (0x981, 0x983), (0x9bc, 0x9bc), (0x9be, 0x9c4), (0x9c7, 0x9c8),
   (0x9cb, 0x9cd), (0x9d7, 0x9d7), (0x9e2, 0x9e3), (0x9fe, 0x9fe), (0xa01, 0xa03),
   (0xa3c, 0xa3c), (0xa3e, 0xa42), (0xa47, 0xa48), (0xa4b, 0xa4d), (0xa51, 0xa51),
   (0xa70, 0xa71), (0xa75, 0xa75), (0xa81, 0xa83), (0xabc, 0xabc), (0xabe, 0xac5),
   (0xac7, 0xac9), (0xacb, 0xacd), (0xae2, 0xae3), (0xafa, 0xaff), (0xb01, 0xb03),
   (0xb3c, 0xb3c), (0xb3e, 0xb44), (0xb47, 0xb48), (0xb4b, 0xb4d), (0xb55, 0xb57),
   (0xb62, 0xb63), (0xb82, 0xb82), (0xbbe, 0xbc2), (0xbc6, 0xbc8), (0xbca, 0xbcd),
   (0xbd7, 0xbd7), (0xc00, 0xc04), (0xc3c, 0xc3c), (0xc3e, 0xc44), (0xc46, 0xc48),
   (0xc4a, 0xc4d), (0xc55, 0xc56), (0xc62, 0xc63), (0xc81, 0xc83), (0xcbc, 0xcbc),
   (0xcbe, 0xcc4), (0xcc6, 0xcc8), (0xcca, 0xccd), (0xcd5, 0xcd6), (0xce2, 0xce3),
   (0xcf3, 0xcf3), (0xd00, 0xd03), (0xd3b, 0xd3c), (0xd3e, 0xd44), (0xd46, 0xd48),
   (0xd4a, 0xd4d), (0xd57, 0xd57), (0xd62, 0xd63), (0xd81, 0xd83), (0xdca, 0xdca),
   (0xdcf, 0xdd4), (0xdd6, 0xdd6), (0xdd8, 0xddf), (0xdf2, 0xdf3), (0xe31, 0xe31),
   (0xe34, 0xe3a), (0xe47, 0xe4e), (0xeb1, 0xeb1), (0xeb4, 0xebc), (0xec8, 0xece),
   (0xf18, 0xf19), (0xf35, 0xf35), (0xf37, 0xf37), (0xf39, 0xf39), (0xf3e, 0xf3f),
   (0xf71, 0xf84), (0xf86, 0xf87), (0xf8d, 0xf97), (0xf99, 0xfbc), (0xfc6, 0xfc6),
   (0x102b, 0x103e), (0x1056, 0x1059), (0x105e, 0x1060), (0x1062, 0x1064), (0x1067, 0x106d),
   (0x1071, 0x1074), (0x1082, 0x108d), (0x108f, 0x108f), (0x109a, 0x109d), (0x135d, 0x135f)]

/-- Accents from U+1712 on, as closed ranges. -/
def accentsSecond : List (Nat × Nat) :=
  [(0x1712, 0x1715), (0x1732, 0x1734), (0x1752, 0x1753), (0x1772, 0x1773),
   (0x17b4, 0x17d3), (0x17dd, 0x17dd), (0x180b, 0x180d), (0x180f, 0x180f),
   (0x1885, 0x1886), (0x18a9, 0x18a9), (0x1920, 0x192b), (0x1930, 0x193b),
   (0x1a17, 0x1a1b), (0x1a55, 0x1a5e), (0x1a60, 0x1a7c), (0x1a7f, 0x1a7f),
   (0x1ab0, 0x1ace), (0x1b00, 0x1b04), (0x1b34, 0x1b44), (0x1b6b, 0x1b73),
   (0x1b80, 0x1b82), (0x1ba1, 0x1bad), (0x1be6, 0x1bf3), (0x1c24, 0x1c37),
   (0x1cd0, 0x1cd2), (0x1cd4, 0x1ce8), (0x1ced, 0x1ced), (0x1cf4, 0x1cf4),
   (0x1cf7, 0x1cf9), (0x1dc0, 0x1dff), (0x20d0, 0x20f0), (0x2cef, 0x2cf1),
   (0x2d7f, 0x2d7f), (0x2de0, 0x2dff), (0x302a, 0x302f), (0x3099, 0x309a),
   (0xa66f, 0xa672), (0xa674, 0xa67d), (0xa69e, 0xa69f), (0xa6f0, 0xa6f1),
   (0xa802, 0xa802), (0xa806, 0xa806), (0xa80b, 0xa80b), (0xa823, 0xa827),
   (0xa82c, 0xa82c), (0xa880, 0xa881), (0xa8b4, 0xa8c5), (0xa8e0, 0xa8f1),
   (0xa8ff, 0xa8ff), (0xa926, 0xa92d), (0xa947, 0xa953), (0xa980, 0xa983),
   (0xa9b3, 0xa9c0), (0xa9e5, 0xa9e5), (0xaa29, 0xaa36), (0xaa43, 0xaa43),
   (0xaa4c, 0xaa4d), (0xaa7b, 0xaa7d), (0xaab0, 0xaab0), (0xaab2, 0xaab4),
   (0xaab7, 0xaab8), (0xaabe, 0xaabf), (0xaac1, 0xaac1), (0xaaeb, 0xaaef),
   (0xaaf5, 0xaaf6), (0xabe3, 0xabea), (0xabec, 0xabed), (0xfb1e, 0xfb1e),
   (0xfe00, 0xfe0f), (0xfe20, 0xfe2f), (0xff9e, 0xff9f), (0x101fd, 0x101fd),
   (0x102e0, 0x102e0), (0x10376, 0x1037a), (0x10a01, 0x10a03), (0x10a05, 0x10a06),
   (0x10a0c, 0x10a0f), (0x10a38, 0x10a3a), (0x10a3f, 0x10a3f), (0x10ae5, 0x10ae6),
   (0x10d24, 0x10d27), (0x10d69, 0x10d6d), (0x10eab, 0x10eac), (0x10efc, 0x10eff),
   (0x10f46, 0x10f50), (0x10f82, 0x10f85), (0x11000, 0x11002), (0x11038, 0x11046),
   (0x11070, 0x11070), (0x11073, 0x11074), (0x1107f, 0x11082), (0x110b0, 0x110ba),
   (0x110c2, 0x110c2), (0x11100, 0x11102), (0x11127, 0x11134), (0x11145, 0x11146),
   (0x11173, 0x11173), (0x11180, 0x11182), (0x111b3, 0x111c0), (0x111c9, 0x111cc),
   (0x111ce, 0x111cf), (0x1122c, 0x11237), (0x1123e, 0x1123e), (0x11241, 0x11241),
   (0x112df, 0x112ea), (0x11300, 0x11303), (0x1133b, 0x1133c), (0x1133e, 0x11344),
   (0x11347, 0x11348), (0x1134b, 0x1134d), (0x11357, 0x11357), (0x11362, 0x11363),
   (0x11366, 0x1136c), (0x11370, 0x11374), (0x113b8, 0x113c0), (0x113c2, 0x113c2),
   (0x113c5, 0x113c5), (0x113c7, 0x113ca), (0x113cc, 0x113d0), (0x113d2, 0x113d2),
   (0x113e1, 0x113e2), (0x11435, 0x11446), (0x1145e, 0x1145e), (0x114b0, 0x114c3),
   (0x115af, 0x115b5), (0x115b8, 0x115c0), (0x115dc, 0x115dd), (0x11630, 0x11640)]

/-- Accents from U+116AB on, as closed ranges. -/
def accentsThird : List (Nat × Nat) :=
  [(0x116ab, 0x116b7), (0x1171d, 0x1172b), (0x1182c, 0x1183a), (0x11930, 0x11935),
   (0x11937, 0x11938), (0x1193b, 0x1193e), (0x11940, 0x11940), (0x11942, 0x11943),
   (0x119d1, 0x119d7), (0x119da, 0x119e0), (0x119e4, 0x119e4), (0x11a01, 0x11a0a),
   (0x11a33, 0x11a39), (0x11a3b, 0x11a3e), (0x11a47, 0x11a47), (0x11a51, 0x11a5b),
   (0x11a8a, 0x11a99), (0x11c2f, 0x11c36), (0x11c38, 0x11c3f), (0x11c92, 0x11ca7),
   (0x11ca9, 0x11cb6), (0x11d31, 0x11d36), (0x11d3a, 0x11d3a), (0x11d3c, 0x11d3d),
   (0x11d3f, 0x11d45), (0x11d47, 0x11d47), (0x11d8a, 0x11d8e), (0x11d90, 0x11d91),
   (0x11d93, 0x11d97), (0x11ef3, 0x11ef6), (0x11f00, 0x11f01), (0x11f03, 0x11f03),
   (0x11f34, 0x11f3a), (0x11f3e, 0x11f42), (0x11f5a, 0x11f5a), (0x13440, 0x13440),
   (0x13447, 0x13455), (0x1611e, 0x1612f), (0x16af0, 0x16af4), (0x16b30, 0x16b36),
   (0x16f4f, 0x16f4f), (0x16f51, 0x16f87), (0x16f8f, 0x16f92), (0x16fe4, 0x16fe4),
   (0x16ff0, 0x16ff1), (0x1bc9d, 0x1bc9e), (0x1cf00, 0x1cf2d), (0x1cf30, 0x1cf46),
   (0x1d165, 0x1d169), (0x1d16d, 0x1d172), (0x1d17b, 0x1d182), (0x1d185, 0x1d18b),
   (0x1d1aa, 0x1d1ad), (0x1d242, 0x1d244), (0x1da00, 0x1da36), (0x1da3b, 0x1da6c),
   (0x1da75, 0x1da75), (0x1da84, 0x1da84), (0x1da9b, 0x1da9f), (0x1daa1, 0x1daaf),
   (0x1e000, 0x1e006), (0x1e008, 0x1e018), (0x1e01b, 0x1e021), (0x1e023, 0x1e024),
   (0x1e026, 0x1e02a), (0x1e08f, 0x1e08f), (0x1e130, 0x1e136), (0x1e2ae, 0x1e2ae),
   (0x1e2ec, 0x1e2ef), (0x1e4ec, 0x1e4ef), (0x1e5ee, 0x1e5ef), (0x1e8d0, 0x1e8d6),
   (0x1e944, 0x1e94a), (0xe0100, 0xe01ef)]

/-- The character of a run that stands for a code point. -/
def inRun (n : Nat) (run : Nat × String) : Option Char :=
  if n < run.1 then none else run.2.toList[n - run.1]?

/-- What a character outside ASCII folds to. -/
def foldOther (n : Nat) : List Char :=
  if [accentsFirst, accentsSecond, accentsThird].any fun t =>
      t.any fun (r : Nat × Nat) => r.1 ≤ n && n ≤ r.2 then []
  else
    match [wordsFirst, wordsSecond, wordsThird].findSome? fun t =>
        t.find? fun (r : Nat × String) => r.1 == n with
    | some r => r.2.toList
    | none =>
      match [lettersFirst].findSome? fun t => t.findSome? (inRun n) with
      | some c => [c]
      | none => ['-']

/-- Lower-case letters and digits of ASCII. -/
def isWordChar (c : Char) : Bool := ('a' ≤ c && c ≤ 'z') || ('0' ≤ c && c ≤ '9')

/-- What a character folds to: word characters, and `-` for anything else that is no accent. -/
def fold (c : Char) : List Char :=
  if isWordChar c then [c]
  else if 'A' ≤ c ∧ c ≤ 'Z' then [Char.ofNat (c.toNat + 32)]
  else if c.toNat < 128 then ['-']
  else (foldOther c.toNat).map fun (d : Char) => if isWordChar d then d else '-'

end Slug

end BatchRun
